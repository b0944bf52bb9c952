import Ssh2Python.Verify.KnownHosts

/-!
# Lines of known hosts from elsewhere

Lines that the library did not write itself: base64 with other bytes between its digits, lists of
names, and names that are too short. `knownhostReadfile_safe` is about any file at all: what makes
the reader write outside of its memory is in the lines with hashed names alone, where
`base64Decode_overflow_iff` says what it is.
-/

namespace Ssh2Python

open Lib.CInt Lib.CString

/-! ## Base64 -/

theorem mk_none_ne_pure {α : Type} (x : α) : (.mk none : Fallible α) ≠ pure x :=
  fun h => absurd (congrArg ExceptT.run h) nofun

theorem mk_none_ne_throw {α : Type} (rc : Int) : (.mk none : Fallible α) ≠ throw rc :=
  fun h => absurd (congrArg ExceptT.run h) nofun

theorem base64Decode_eq_none_iff (src : List UInt8) : base64Decode src = .mk none ↔
    base64DecodeRoom src < (Lib.Base64.run base64 src).top := by
  unfold base64Decode
  constructor
  · intro h
    by_contra hroom
    rw [if_neg hroom] at h
    cases hdecode : Lib.Base64.decode base64 src with
    | none =>
      rw [hdecode] at h
      exact mk_none_ne_throw _ h.symm
    | some data =>
      rw [hdecode] at h
      exact mk_none_ne_pure _ h.symm
  · intro hroom
    rw [if_pos hroom]

/-- **The buffer of the decoder** is too small exactly if the text has as many complete groups as
its length has room for, and two or three digits more. -/
theorem base64Decode_overflow_iff (src : List UInt8) : base64Decode src = .mk none ↔
    (src.filterMap base64ReverseTable).length / 4 = src.length / 4 ∧
      2 ≤ (src.filterMap base64ReverseTable).length % 4 := by
  have htop : (Lib.Base64.run base64 src).top =
      3 * ((src.filterMap base64ReverseTable).length / 4) +
      (src.filterMap base64ReverseTable).length % 4 := Lib.Base64.top_run src
  have hle := List.length_filterMap_le base64ReverseTable src
  rw [base64Decode_eq_none_iff, htop, base64DecodeRoom]
  omega

/-- **Base64 comes back**: an encoding that has been broken up by other bytes, and may have lost its
padding to them, decodes to what was encoded. -/
theorem base64Decode_base64Encode {bs src : List UInt8} (hne : bs ≠ [])
    (hdigits : src.filterMap base64ReverseTable =
      (base64Encode bs bs.length).filterMap base64ReverseTable)
    (hlen : (base64Encode bs bs.length).length ≤ src.length) : base64Decode src = pure bs := by
  have hencode : base64Encode bs bs.length = Lib.Base64.encode base64 bs := by
    have hlength : bs.length ≠ 0 := by simpa using hne
    rw [base64Encode, if_neg hlength, List.take_length]
  rw [hencode] at hdigits hlen
  have hdecode : Lib.Base64.decode base64 src = some bs :=
    Lib.Base64.decode_encode_of_filter hdigits
  have hroom : ¬ base64DecodeRoom src < (Lib.Base64.run base64 src).top := by
    have htop : (Lib.Base64.run base64 src).top = _ := Lib.Base64.top_run src
    have hvalues : src.filterMap base64.value = Lib.Base64.values bs := by
      rw [← @Lib.Base64.filterMap_encode base64 bs]
      exact hdigits
    have hlength := Lib.Base64.length_values_add bs
    rw [Lib.Base64.length_encode] at hlen
    rw [htop, hvalues, base64DecodeRoom]
    omega
  rw [base64Decode, if_neg hroom, hdecode]

theorem base64Decode_base64Encode_broken :
    base64Decode (asciiBytes "aG9z\ndA  ") = pure (asciiBytes "host") :=
  base64Decode_base64Encode (by decide) (by decide) (by decide)

/-! ## Names -/

/-- Memory without a bar holds no hashed name. -/
theorem hashedHostline_of_not_mem {hosts : List HostEntry} {host : List UInt8} {hostlen : Nat}
    {k : KeyPart} (h : 124 ∉ host) : hashedHostline hosts host hostlen k = some ⟨0, hosts⟩ := by
  have hhead (n : Nat) : ((host.drop 3).drop n).headD 0 ≠ 124 := by
    cases hdrop : (host.drop 3).drop n with
    | nil => decide
    | cons b tail =>
      intro hb
      have hmem : b ∈ (host.drop 3).drop n := hdrop ▸ List.mem_cons_self
      exact h (hb ▸ List.mem_of_mem_drop (List.mem_of_mem_drop hmem))
  simp only [hashedHostline, if_neg (hhead _)]

theorem isWord_intercalate {names : List (List UInt8)} (h : ∀ name ∈ names, IsWord name) :
    IsWord (List.intercalate [44] names) := by
  induction names with
  | nil => exact nofun
  | cons name names ih =>
    have hname := h name List.mem_cons_self
    by_cases hnil : names = []
    · rw [hnil, List.intercalate_singleton]
      exact hname
    · intro b hb
      rw [List.intercalate_cons_of_ne_nil hnil, List.mem_append, List.mem_append,
        List.mem_singleton] at hb
      rcases hb with (hb | rfl) | hb
      · exact hname b hb
      · decide
      · exact ih (fun name' hname' => h name' (List.mem_cons_of_mem name hname')) b hb

section Names

variable {e : HostEntry} (hkey : e.StorableKey) (hlong : 20 ≤ e.keyText.length)
  (hfits : e.keyText.length < 2 ^ 64) (hosts : List HostEntry)
include hkey hlong hfits

/-- A line with a host and the key of an entry. -/
theorem readline_host {host : List UInt8} (hword : IsWord host) (hne : host ≠ [])
    (hhash : host.headD 0 ≠ 35) :
    knownhostReadline hosts (host ++ 32 :: (e.keyText ++ [10, 0]))
        (host.length + 1 + e.keyText.length + 1)
        fileOpenSSH =
      hostline hosts (host ++ 32 :: (e.keyText ++ [10, 0])) host.length (e.keyText ++ [10, 0])
        e.keyText.length := by
  have hread := hkey.read hfits
  have htext : e.keyText ≠ [] := fun hnil => by simp [hnil] at hlong
  rw [knownhostReadline, if_neg (not_not_intro rfl),
    splitLine_words rfl hword hne hhash hread.text htext hread.notBlank]

/-- **A line with several names** adds the key under each of them, the last name first. -/
theorem readline_names {names : List (List UInt8)}
    (h : ∀ name ∈ names, name ≠ [] ∧ IsWord name ∧ 44 ∉ name ∧ name.length < 255)
    (hlen : 2 < (List.intercalate [44] names).length)
    (hhash : (List.intercalate [44] names).headD 0 ≠ 35)
    (hmarker : (List.intercalate [44] names).take 3 ≠ asciiBytes "|1|") :
    knownhostReadline hosts (List.intercalate [44] names ++ 32 :: (e.keyText ++ [10, 0]))
        ((List.intercalate [44] names).length + 1 + e.keyText.length + 1) fileOpenSSH =
      some ⟨0, hosts ++ names.reverse.map fun name => e.readAs name [] Typemask.plain⟩ := by
  have hread := hkey.read hfits
  have hword := isWord_intercalate fun name hname => (h name hname).2.1
  have hne : List.intercalate [44] names ≠ [] := fun hnil => by simp [hnil] at hlen
  have hnames : names ≠ [] := fun hnil => hne (by rw [hnil, List.intercalate_nil])
  have hlong' : ¬ e.keyText.length < 20 := Nat.not_lt.mpr hlong
  have hplain : 2 < (List.intercalate [44] names).length ∧
      (List.intercalate [44] names ++ 32 :: (e.keyText ++ [10, 0])).take 3 ≠ asciiBytes "|1|" := by
    rw [List.take_append_of_le_length hlen]
    exact ⟨hlen, hmarker⟩
  rw [readline_host hkey hlong hfits hosts hword hne hhash, hostline, if_neg hlong', if_pos hplain,
    oldstyleHostline_names hread.addable hosts hnames, hread.entry]
  exact fun name hname => ⟨(h name hname).1, (h name hname).2.2.1,
    (h name hname).2.1.isText.zero_not_mem, (h name hname).2.2.2⟩

/-- **A name of one or two bytes is lost**: its line is taken for one with a hashed name, and as
nothing in it looks like one, it is passed over. -/
theorem readline_short {host : List UInt8} (hword : IsWord host) (hne : host ≠ [])
    (hhash : host.headD 0 ≠ 35) (hshort : host.length ≤ 2) (hbar : 124 ∉ host ∧ 124 ∉ e.keyText) :
    knownhostReadline hosts (host ++ 32 :: (e.keyText ++ [10, 0]))
        (host.length + 1 + e.keyText.length + 1) fileOpenSSH = some ⟨0, hosts⟩ := by
  have hlong' : ¬ e.keyText.length < 20 := Nat.not_lt.mpr hlong
  have hplain : ¬ (2 < host.length ∧
      (host ++ 32 :: (e.keyText ++ [10, 0])).take 3 ≠ asciiBytes "|1|") :=
    fun h => Nat.not_lt.mpr hshort h.1
  have hmem : 124 ∉ host ++ 32 :: (e.keyText ++ [10, 0]) := by
    simp [hbar]
  rw [readline_host hkey hlong hfits hosts hword hne hhash, hostline, if_neg hlong', if_neg hplain,
    hashedHostline_of_not_mem hmem]

end Names

/-- The key of an entry, for lines with other names. -/
def sampleKey : HostEntry where
  name := []
  typemask := Typemask.key 2
  key := asciiBytes "AAAAB3NzaC1yc2EAAAADAQABAAAB"

theorem sampleKey_storable : sampleKey.StorableKey :=
  .typed (by decide) (by decide) (by decide) (by decide) (by decide) (fun _ => rfl) (by decide)
    (by decide) nofun

theorem readline_names_two :
    knownhostReadline [] (asciiBytes "ab,example.org" ++ 32 :: (sampleKey.keyText ++ [10, 0]))
        ((asciiBytes "ab,example.org").length + 1 + sampleKey.keyText.length + 1) fileOpenSSH =
      some ⟨0, [] ++ [asciiBytes "example.org", asciiBytes "ab"].map
        fun name => sampleKey.readAs name [] Typemask.plain⟩ :=
  @readline_names sampleKey sampleKey_storable (by decide) (by decide) []
    [asciiBytes "ab", asciiBytes "example.org"] (by decide) (by decide) (by decide) (by decide)

theorem readline_short_two :
    knownhostReadline [] (asciiBytes "ab" ++ 32 :: (sampleKey.keyText ++ [10, 0]))
        ((asciiBytes "ab").length + 1 + sampleKey.keyText.length + 1) fileOpenSSH = some ⟨0, []⟩ :=
  readline_short sampleKey_storable (by decide) (by decide) [] (by decide) (by decide) (by decide)
    (by decide) (by decide)

/-! ## Any file -/

/-- A loop over blanks stops in front of a byte that is none. -/
theorem length_takeWhile_le {p : UInt8 → Bool} {xs : List UInt8} {n : Nat}
    (h : p ((xs.drop n).headD 0) = false) : (xs.takeWhile p).length ≤ n := by
  induction xs generalizing n with
  | nil => simp
  | cons b xs ih =>
    cases n with
    | zero => rw [List.takeWhile_cons_of_neg (by simpa using h)]; exact Nat.le_refl 0
    | succ n =>
      by_cases hb : p b = true
      · rw [List.takeWhile_cons_of_pos hb, List.length_cons]
        exact Nat.succ_le_succ (ih h)
      · rw [List.takeWhile_cons_of_neg hb]
        exact Nat.zero_le _

theorem wordLen_le (mem : List UInt8) (len : Nat) : wordLen mem len ≤ len :=
  (List.takeWhile_prefix _).length_le.trans (List.length_take_le len mem)

theorem blankLen_le (mem : List UInt8) (len : Nat) : blankLen mem len ≤ len :=
  (List.takeWhile_prefix _).length_le.trans (List.length_take_le len mem)

/-- If the key part does not end in front of a blank, the length of the comment does not wrap
around. -/
theorem keyPart_addable {key : List UInt8} {keylen : Nat}
    (hend : isBlank ((key.drop keylen).headD 0) = false) (hlen : keylen + 1 < 2 ^ 64) :
    (keyPart key keylen).Addable := by
  by_cases hdigit : isDigit (key.headD 0) = true
  · rw [keyPart_digit hdigit]
    exact ⟨Nat.one_ne_zero, by simp, by simp⟩
  · have hword := wordLen_le key keylen
    have hskip : ((key.drop (wordLen key keylen)).takeWhile isBlank).length ≤
        keylen - wordLen key keylen := by
      refine length_takeWhile_le ?_
      rw [List.drop_drop, Nat.add_sub_cancel' hword]
      exact hend
    have hrest : toSize ((keylen : Int) - (wordLen key keylen : Nat) -
        (((key.drop (wordLen key keylen)).takeWhile isBlank).length : Nat)) ≤ keylen := by
      rw [toSize_eq (by omega) (by omega)]
      omega
    have hbounds := keyTypeOf_bounds (key.take (wordLen key keylen))
    simp only [keyPart, hdigit, Bool.false_eq_true, if_false]
    refine ⟨hbounds.1, hbounds.2, ?_⟩
    dsimp only
    omega

theorem addNames_isSome {k : KeyPart} (hk : k.Addable) (hosts : List HostEntry)
    (names : List (List UInt8)) : (addNames k hosts names).isSome := by
  induction names generalizing hosts with
  | nil => rfl
  | cons name names ih =>
    rw [addNames, knownhostAdd_plain hk hosts]
    split
    · rfl
    · simpa using ih _

theorem hostline_isSome {hosts : List HostEntry} {host key : List UInt8} {hostlen keylen : Nat}
    (hk : (keyPart key keylen).Addable) (hbar : 124 ∉ host) :
    (hostline hosts host hostlen key keylen).isSome := by
  unfold hostline oldstyleHostline
  rw [hashedHostline_of_not_mem hbar]
  split
  · rfl
  split
  · split
    · rfl
    · exact addNames_isSome hk hosts _
  · rfl

/-- A line in memory: it has a NUL behind it, and no line feed in front of its last byte. -/
structure IsLine (mem : List UInt8) (len : Nat) : Prop where
  ends : (mem.drop len).headD 0 = 0
  feed : 10 ∉ mem.take (len - 1)

/-- The text of a key stops at the line feed, or at the NUL, that the line ends with. -/
theorem key_ends {mem : List UInt8} {len n : Nat} (h : IsLine mem len) (hn : n ≤ len) :
    (if ((mem.drop n).drop
        (((mem.drop n).take (len - n)).takeWhile fun b => b ≠ 0 ∧ b ≠ 10).length).headD 0 = 10
      then isBlank (((mem.drop n).drop (len - n - 1)).headD 0) = false
      else isBlank (((mem.drop n).drop (len - n)).headD 0) = false) := by
  have hlast : (mem.drop n).drop (len - n) = mem.drop len := by
    rw [List.drop_drop, Nat.add_sub_cancel' hn]
  generalize hk : (((mem.drop n).take (len - n)).takeWhile fun b => b ≠ 0 ∧ b ≠ 10).length = k
  have hkle : k ≤ len - n := by
    rw [← hk]
    exact (List.takeWhile_prefix _).length_le.trans (List.length_take_le _ _)
  split
  · next hfeed =>
    have hk' : k = len - n - 1 := by
      by_contra hne
      have hlt : k < len - n := by
        refine Nat.lt_of_le_of_ne hkle fun heq => ?_
        rw [heq, hlast, h.ends] at hfeed
        exact absurd hfeed (by decide)
      rw [List.drop_drop, List.headD_eq_head?_getD, List.head?_drop] at hfeed
      have hat : mem[n + k]? = some 10 := by
        cases hget : mem[n + k]? with
        | none => simp [hget] at hfeed
        | some b => simpa [hget] using hfeed
      refine h.feed (List.mem_of_getElem? (i := n + k) ?_)
      rw [List.getElem?_take_of_lt (by omega), hat]
    rw [← hk', hfeed]
    decide
  · rw [hlast, h.ends]
    decide

/-- The host and the key of a line are parts of it, and the key does not end in front of a blank. -/
theorem splitLine_parts {mem host key : List UInt8} {len hostlen keylen : Nat} (h : IsLine mem len)
    (hparts : splitLine mem len = .parts host hostlen key keylen) :
    (∀ b ∈ host, b ∈ mem) ∧ keylen ≤ len ∧ isBlank ((key.drop keylen).headD 0) = false := by
  have hblanks := blankLen_le mem len
  have hword := wordLen_le (mem.drop (blankLen mem len)) (len - blankLen mem len)
  unfold splitLine at hparts
  dsimp only at hparts
  generalize blankLen mem len = blanks at hparts hblanks hword
  generalize wordLen (mem.drop blanks) (len - blanks) = word at hparts hword
  have hsep := blankLen_le ((mem.drop blanks).drop word) (len - blanks - word)
  generalize blankLen ((mem.drop blanks).drop word) (len - blanks - word) = sep at hparts hsep
  split at hparts
  · exact absurd hparts nofun
  split at hparts
  · exact absurd hparts nofun
  injection hparts with hhost hhostlen hkey hkeylen
  have hends := @key_ends mem len (blanks + (word + sep)) h (by omega)
  have hlen : len - (blanks + (word + sep)) = len - blanks - word - sep := by omega
  rw [hlen, ← List.drop_drop, hkey] at hends
  rw [hkey] at hkeylen
  refine ⟨fun b hb => List.mem_of_mem_drop (hhost ▸ hb), ?_, ?_⟩
  · rw [← hkeylen]
    split <;> omega
  · rw [← hkeylen]
    split
    · next hfeed => rwa [if_pos hfeed] at hends
    · next hfeed => rwa [if_neg hfeed] at hends

/-- **A line without a hashed name** is read, or refused, without a write outside of the memory that
was allocated. -/
theorem knownhostReadline_isSome {mem : List UInt8} {len : Nat} (h : IsLine mem len)
    (hlen : len + 1 < 2 ^ 64) (hbar : 124 ∉ mem) (hosts : List HostEntry) (type : Int) :
    (knownhostReadline hosts mem len type).isSome := by
  unfold knownhostReadline
  split
  · rfl
  · cases hparts : splitLine mem len with
    | none rc => rfl
    | parts host hostlen key keylen =>
      obtain ⟨hhost, hle, hend⟩ := splitLine_parts h hparts
      exact hostline_isSome (keyPart_addable hend (by omega)) fun hb => hbar (hhost 124 hb)

/-- What `fgets` gives: lines that fit in the buffer and whose line feed is their last byte. -/
theorem fgetsLines_spec {content cur : List UInt8} (hcur : 10 ∉ cur)
    (hlen : cur.length < lineBuffer - 1) :
    ∀ line ∈ fgetsLines content cur, 10 ∉ line.dropLast ∧ line.length < lineBuffer ∧
      ∀ b ∈ line, b ∈ cur ++ content := by
  induction content generalizing cur with
  | nil =>
    intro line hline
    rw [fgetsLines] at hline
    split at hline
    · exact absurd hline List.not_mem_nil
    · rw [List.mem_singleton.mp hline]
      exact ⟨fun h => hcur (List.mem_of_mem_dropLast h), by omega, fun b hb => by simpa using hb⟩
  | cons b content ih =>
    intro line hline
    rw [fgetsLines] at hline
    split at hline
    · rcases List.mem_cons.mp hline with rfl | hline
      · rw [List.dropLast_concat, List.length_append, List.length_singleton]
        refine ⟨hcur, by omega, fun b' hb' => ?_⟩
        simp only [List.mem_append, List.mem_cons, List.not_mem_nil, or_false] at hb' ⊢
        exact hb'.imp id .inl
      · obtain ⟨hfeed, hlt, hmem⟩ := ih List.not_mem_nil (by decide) line hline
        refine ⟨hfeed, hlt, fun b' hb' => ?_⟩
        have hb'' := hmem b' hb'
        simp only [List.nil_append] at hb''
        exact List.mem_append_right _ (List.mem_cons_of_mem b hb'')
    · next hstay =>
      rw [not_or] at hstay
      have hcur' : 10 ∉ cur ++ [b] := by
        simpa using ⟨hcur, Ne.symm hstay.1⟩
      have hlen' : (cur ++ [b]).length < lineBuffer - 1 := by
        rw [List.length_append, List.length_singleton]
        omega
      obtain ⟨hfeed, hlt, hmem⟩ := ih hcur' hlen' line hline
      refine ⟨hfeed, hlt, fun b' hb' => ?_⟩
      simpa using hmem b' hb'

/-- A string ends at a NUL, or with its memory. -/
theorem headD_drop_strlen (mem : List UInt8) : (mem.drop (strlen mem)).headD 0 = 0 := by
  induction mem with
  | nil => rfl
  | cons b mem ih =>
    rw [strlen_cons]
    split
    · next hb => simpa using hb
    · rwa [List.drop_succ_cons]

theorem isLine_of_fgets {line : List UInt8} (h : 10 ∉ line.dropLast) :
    IsLine (line ++ [0]) (strlen (line ++ [0])) := by
  have hle : strlen (line ++ [0]) ≤ line.length := strlen_terminated_le
  refine ⟨headD_drop_strlen _, fun hfeed => h ?_⟩
  rw [List.take_append_of_le_length (by omega)] at hfeed
  rw [List.dropLast_eq_take]
  exact List.take_subset_take_left _ (by omega) hfeed

theorem readLinesInto_isSome {lines : List (List UInt8)} (hosts : List HostEntry) (num : Int)
    (h : ∀ line ∈ lines, 10 ∉ line.dropLast ∧ line.length < lineBuffer ∧ 124 ∉ line) :
    (readLinesInto hosts num lines).isSome := by
  induction lines generalizing hosts num with
  | nil => rfl
  | cons line lines ih =>
    obtain ⟨hfeed, hlt, hbar⟩ := h line List.mem_cons_self
    have hle : strlen (line ++ [0]) ≤ line.length := strlen_terminated_le
    have hbar' : 124 ∉ line ++ [0] := by simpa using hbar
    have hbuf : lineBuffer = 4092 := rfl
    have hread :=
      knownhostReadline_isSome (isLine_of_fgets hfeed) (by omega) hbar' hosts fileOpenSSH
    obtain ⟨r, hr⟩ := Option.isSome_iff_exists.mp hread
    rw [readLinesInto, hr, Option.bind_some]
    split
    · rfl
    · exact ih _ _ fun line' hline' => h line' (List.mem_cons_of_mem line hline')

/-- **Any file without hashed names** is read, up to its first line that is refused, without a write
outside of the memory that was allocated. -/
theorem knownhostReadfile_safe {content : List UInt8} (h : 124 ∉ content) (hosts : List HostEntry)
    (type : Int) : (knownhostReadfile hosts content type).isSome := by
  unfold knownhostReadfile
  split
  · rfl
  · refine readLinesInto_isSome hosts 0 fun line hline => ?_
    obtain ⟨hfeed, hlt, hmem⟩ := fgetsLines_spec List.not_mem_nil (by decide) line hline
    exact ⟨hfeed, hlt, fun hbar => h (by simpa using hmem 124 hbar)⟩

theorem knownhostReadfile_safe_text :
    (knownhostReadfile [] (asciiBytes "a b\nexample.org") fileOpenSSH).isSome = true :=
  knownhostReadfile_safe (by decide) [] fileOpenSSH

end Ssh2Python
