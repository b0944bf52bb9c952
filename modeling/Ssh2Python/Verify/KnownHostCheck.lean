import Ssh2Python.Verify.KnownHosts

/-!
# Checking the key of a host

`verdictOf` says what a check is for: of the entries that are for the host, in one of its spellings,
and have a key of the type that is asked for, one with the key is a match, and otherwise the first
one is a mismatch. `knownhostCheck_eq` is that the passes over the list come to that verdict. The
verdict is kept by a file (`check_reread`), and an entry that was added is found (`check_added`).
-/

namespace Ssh2Python

open Lib.CInt Lib.CString

/-- The key of an entry is the given one. -/
def HostEntry.hasKey (key : List UInt8) (e : HostEntry) : Bool :=
  key = cstring (e.key ++ [0])

/-- The verdict on a key, from the entries that it is compared with. -/
def verdictOf (key : List UInt8) (candidates : List HostEntry) : CheckResult :=
  match candidates.find? (HostEntry.hasKey key), candidates.head? with
  | some e, _ => ⟨.match, some e⟩
  | none, some e => ⟨.mismatch, some e⟩
  | none, none => ⟨.notFound, none⟩

/-- The entries that a key of a host is compared with, by the spelling of the host. -/
def candidates (hmac : HostHmac) (hosts : List HostEntry) (typemask : Typemask)
    (spellings : List (List UInt8)) : List HostEntry :=
  spellings.flatMap fun host =>
    hosts.filter fun e => e.isFor hmac typemask.hostType host && e.sameKeyType typemask

/-- The spellings of a host that are looked for. -/
def spellings (host : List UInt8) (port : Int) : List (List UInt8) :=
  if 0 ≤ port then [hostWithPort host port.toNat, host] else [host]

/-! ## The passes -/

variable {isFor : HostEntry → Bool} {typemask : Typemask} {key : List UInt8}

/-- One pass: the first candidate with the key, or else the first candidate. -/
theorem checkPass_eq (badkey : Option HostEntry) (hosts : List HostEntry) :
    checkPass isFor typemask key badkey hosts =
      (((hosts.filter fun e => isFor e && e.sameKeyType typemask).find? (HostEntry.hasKey key)),
        if ((hosts.filter fun e => isFor e && e.sameKeyType typemask).find?
            (HostEntry.hasKey key)).isSome
        then none
        else badkey.or (hosts.filter fun e => isFor e && e.sameKeyType typemask).head?) := by
  induction hosts generalizing badkey with
  | nil => simp [checkPass]
  | cons e es ih =>
    unfold checkPass
    cases hfor : isFor e with
    | false => simp [hfor, ih]
    | true =>
      cases htype : e.sameKeyType typemask with
      | false => simp [hfor, htype, ih]
      | true =>
        by_cases hkey : key = cstring (e.key ++ [0])
        · simp [hfor, htype, HostEntry.hasKey, ← hkey]
        · simp [hfor, htype, HostEntry.hasKey, hkey, ih]

/-- The verdict is the same if what stands in front is only its first entry, with another key. -/
theorem verdictOf_append {front rest : List HostEntry} (h : ∀ e ∈ front, e.hasKey key = false) :
    verdictOf key (front ++ rest) = verdictOf key (front.head?.toList ++ rest) := by
  have hnone : front.find? (HostEntry.hasKey key) = none := by
    simpa [List.find?_eq_none] using h
  cases front with
  | nil => rfl
  | cons e front =>
    have he := h e List.mem_cons_self
    rw [List.find?_cons_of_neg (by simp [he])] at hnone
    simp [verdictOf, List.find?_append, he, hnone]

theorem head?_append_toList {α : Type} (xs : List α) (o : Option α) :
    (o.toList ++ xs).head? = o.or xs.head? := by
  cases o <;> simp

/-- All passes, from an entry with another key that an earlier one came across. -/
theorem checkPasses_eq (hmac : HostHmac) (hosts : List HostEntry) (badkey : Option HostEntry)
    (hosts' : List (List UInt8)) (hbad : ∀ e ∈ badkey, HostEntry.hasKey key e = false) :
    checkPasses hmac hosts typemask key badkey hosts' =
      verdictOf key (badkey.toList ++ candidates hmac hosts typemask hosts') := by
  induction hosts' generalizing badkey with
  | nil =>
    cases badkey with
    | none => simp [checkPasses, candidates, verdictOf]
    | some e => simp [checkPasses, candidates, verdictOf, hbad e rfl]
  | cons host rest ih =>
    have hcand : candidates hmac hosts typemask (host :: rest) =
        (hosts.filter fun e => e.isFor hmac typemask.hostType host && e.sameKeyType typemask) ++
          candidates hmac hosts typemask rest := List.flatMap_cons
    rw [hcand, checkPasses.eq_def]
    simp only [checkPass_eq]
    generalize
      (hosts.filter fun e => e.isFor hmac typemask.hostType host && e.sameKeyType typemask) = here
    have hfind : badkey.toList.find? (HostEntry.hasKey key) = none := by
      simpa [List.find?_eq_none] using hbad
    cases hhere : here.find? (HostEntry.hasKey key) with
    | some e => simp [verdictOf, List.find?_append, hfind, hhere]
    | none =>
      have hnone : ∀ e ∈ badkey.toList ++ here, e.hasKey key = false := by
        intro e he
        rcases List.mem_append.mp he with he | he
        · exact hbad e (Option.mem_toList.mp he)
        · simpa using List.find?_eq_none.mp hhere e he
      have hbad' : ∀ e ∈ badkey.or here.head?, e.hasKey key = false := by
        intro e he
        rw [← head?_append_toList] at he
        exact hnone e (List.mem_of_mem_head? he)
      simp only [Option.isSome_none, Bool.false_eq_true, if_false]
      rw [ih _ hbad', ← List.append_assoc, verdictOf_append hnone, head?_append_toList]

/-- **The verdict of a check**: the passes over the collection compare the key with the candidates,
and a candidate with the key makes it a match wherever it stands among them. -/
theorem knownhostCheck_eq (hmac : HostHmac) (hosts : List HostEntry) {hostp keymem key : List UInt8}
    {port : Int} {keylen : Nat} (htype : typemask.hostType ≠ Typemask.sha1)
    (hport : 0 ≤ port → (hostWithPort (cstring hostp) port.toNat).length < hostBuffer)
    (hkey : checkedKey keymem keylen typemask = some key) :
    knownhostCheck hmac hosts hostp port keymem keylen typemask =
      verdictOf key (candidates hmac hosts typemask (spellings (cstring hostp) port)) := by
  have hfits : ¬ (0 ≤ port ∧ hostBuffer ≤ (hostWithPort (cstring hostp) port.toNat).length) :=
    fun h => Nat.not_le.mpr (hport h.1) h.2
  rw [knownhostCheck, if_neg htype, if_neg hfits]
  simp only [hkey]
  rw [checkPasses_eq hmac hosts none _ nofun]
  rfl

/-- A key that both entries of the host have another one than. -/
theorem knownhostCheck_eq_mismatch :
    checkedKey (asciiBytes "AAAA" ++ [0]) 0 (Typemask.plain ||| Typemask.keyencBase64) =
        some (asciiBytes "AAAA") ∧
      ∀ hmac, knownhostCheck hmac sampleHosts (asciiBytes "example.org" ++ [0]) 22
          (asciiBytes "AAAA" ++ [0]) 0 (Typemask.plain ||| Typemask.keyencBase64) =
        verdictOf (asciiBytes "AAAA") (candidates hmac sampleHosts
          (Typemask.plain ||| Typemask.keyencBase64)
          (spellings (cstring (asciiBytes "example.org" ++ [0])) 22)) :=
  ⟨by decide, fun hmac => knownhostCheck_eq hmac sampleHosts (by decide) (by decide) (by decide)⟩

/-! ## Verdicts -/

theorem verdictOf_match_iff {es : List HostEntry} :
    (verdictOf key es).verdict = .match ↔ ∃ e ∈ es, e.hasKey key = true := by
  unfold verdictOf
  cases hfind : es.find? (HostEntry.hasKey key) with
  | some e => simpa using ⟨e, List.mem_of_find?_eq_some hfind, List.find?_some hfind⟩
  | none =>
    have hnone : ¬ ∃ e ∈ es, e.hasKey key = true := by
      rintro ⟨e, he, hkey⟩
      exact List.find?_eq_none.mp hfind e he hkey
    simp only [hnone, iff_false]
    cases es <;> simp

theorem mem_candidates {hmac : HostHmac} {hosts : List HostEntry} {hosts' : List (List UInt8)}
    {e : HostEntry} : e ∈ candidates hmac hosts typemask hosts' ↔
      e ∈ hosts ∧ e.sameKeyType typemask = true ∧
        ∃ host ∈ hosts', e.isFor hmac typemask.hostType host = true := by
  simp only [candidates, List.mem_flatMap, List.mem_filter, Bool.and_eq_true]
  constructor
  · rintro ⟨host, hhost, he, hfor, htype⟩
    exact ⟨he, htype, host, hhost, hfor⟩
  · rintro ⟨he, htype, host, hhost, hfor⟩
    exact ⟨host, hhost, he, hfor, htype⟩

/-! ## A collection and its file -/

theorem keyMask_lt (t : Typemask) : t.keyMask < 16 := by
  have hmask : (t &&& (15#32 <<< 18)).toNat ≤ 15 * 2 ^ 18 := by
    rw [BitVec.toNat_and]
    exact Nat.and_le_right
  rw [Typemask.keyMask, BitVec.toNat_ushiftRight, Nat.shiftRight_eq_div_pow,
    Nat.div_lt_iff_lt_mul (Nat.two_pow_pos 18)]
  omega

variable {e : HostEntry}

theorem HostEntry.StorableName.type (h : e.StorableName) :
    e.typemask.hostType = Typemask.plain ∨ e.typemask.hostType = Typemask.sha1 := by
  cases h with
  | plain type => exact .inl type
  | sha1 type => exact .inr type

theorem HostEntry.StorableName.reread_masks (h : e.StorableName) :
    e.reread.typemask.keyMask = e.typemask.keyMask ∧
      e.reread.typemask.hostType = e.typemask.hostType := by
  obtain ⟨hkey, hhost, -⟩ := typemask_line (keyMask_lt e.typemask) h.type
  exact ⟨hkey, hhost⟩

/-- What a check asks about an entry, a file keeps. -/
theorem HostEntry.StorableName.isFor_reread (h : e.StorableName) (hmac : HostHmac) (type : Typemask)
    (host : List UInt8) : e.reread.isFor hmac type host = e.isFor hmac type host := by
  rw [isFor, isFor, h.reread_masks.2]
  rfl

theorem HostEntry.StorableName.sameKeyType_reread (h : e.StorableName) :
    e.reread.sameKeyType typemask = e.sameKeyType typemask := by
  rw [sameKeyType, sameKeyType, h.reread_masks.1]

theorem candidates_reread {hmac : HostHmac} {hosts : List HostEntry}
    (h : ∀ e ∈ hosts, e.StorableName) (hosts' : List (List UInt8)) :
    candidates hmac (hosts.map HostEntry.reread) typemask hosts' =
      (candidates hmac hosts typemask hosts').map HostEntry.reread := by
  have hfilter (host : List UInt8) :
      (hosts.map HostEntry.reread).filter
        (fun e => e.isFor hmac typemask.hostType host && e.sameKeyType typemask) =
      (hosts.filter fun e => e.isFor hmac typemask.hostType host && e.sameKeyType typemask).map
        HostEntry.reread := by
    rw [List.filter_map]
    congr 1
    refine List.filter_congr fun e he => ?_
    rw [Function.comp_apply, (h e he).isFor_reread, (h e he).sameKeyType_reread]
  simp only [candidates, hfilter, List.map_flatMap]

/-- A result about the entries as they are read back. -/
def CheckResult.reread (r : CheckResult) : CheckResult :=
  { r with ext := r.ext.map HostEntry.reread }

theorem verdictOf_reread (es : List HostEntry) :
    verdictOf key (es.map HostEntry.reread) = (verdictOf key es).reread := by
  have hfind : (es.map HostEntry.reread).find? (HostEntry.hasKey key) =
      (es.find? (HostEntry.hasKey key)).map HostEntry.reread := by
    rw [List.find?_map]
    rfl
  rw [verdictOf, verdictOf, hfind, List.head?_map]
  cases es.find? (HostEntry.hasKey key) <;> cases es.head? <;> rfl

/-- A check that is refused does not look at the collection. -/
theorem knownhostCheck_reread {hmac : HostHmac} {hosts : List HostEntry}
    (h : ∀ e ∈ hosts, e.StorableName) (hostp keymem : List UInt8) (port : Int) (keylen : Nat) :
    knownhostCheck hmac (hosts.map HostEntry.reread) hostp port keymem keylen typemask =
      (knownhostCheck hmac hosts hostp port keymem keylen typemask).reread := by
  by_cases htype : typemask.hostType = Typemask.sha1
  · simp [knownhostCheck, htype, CheckResult.reread]
  by_cases hport : 0 ≤ port ∧ hostBuffer ≤ (hostWithPort (cstring hostp) port.toNat).length
  · simp [knownhostCheck, htype, hport, CheckResult.reread]
  have hfits : 0 ≤ port → (hostWithPort (cstring hostp) port.toNat).length < hostBuffer := by
    intro h0
    exact Nat.not_le.mp fun hle => hport ⟨h0, hle⟩
  cases hkey : checkedKey keymem keylen typemask with
  | none => simp [knownhostCheck, htype, hport, hkey, CheckResult.reread]
  | some key =>
    rw [knownhostCheck_eq hmac _ htype hfits hkey, knownhostCheck_eq hmac _ htype hfits hkey,
      candidates_reread h, verdictOf_reread]

/-- **A collection that went through a file gives the same verdicts.** -/
theorem check_after_file {hosts : List HostEntry} (h : ∀ e ∈ hosts, e.Storable lineBuffer)
    (behind buffer : List UInt8) :
    ∃ hosts', knownhostReadfile [] (knownhostWritefile behind buffer hosts fileOpenSSH).2
        fileOpenSSH = some ⟨hosts.length, hosts'⟩ ∧
      ∀ (hmac : HostHmac) (hostp keymem : List UInt8) (port : Int) (keylen : Nat)
        (typemask : Typemask), knownhostCheck hmac hosts' hostp port keymem keylen typemask =
          (knownhostCheck hmac hosts hostp port keymem keylen typemask).reread := by
  refine ⟨hosts.map HostEntry.reread, ?_, fun hmac hostp keymem port keylen typemask =>
    knownhostCheck_reread (fun e he => (h e he).name) hostp keymem port keylen⟩
  rw [knownhostWritefile_eq h, knownhostReadfile_fileOf h, List.nil_append]

theorem check_after_file_sample :
    ∃ hosts', knownhostReadfile [] (knownhostWritefile [] [] sampleHosts fileOpenSSH).2
        fileOpenSSH = some ⟨sampleHosts.length, hosts'⟩ ∧
      ∀ (hmac : HostHmac) (hostp keymem : List UInt8) (port : Int) (keylen : Nat)
        (typemask : Typemask), knownhostCheck hmac hosts' hostp port keymem keylen typemask =
          (knownhostCheck hmac sampleHosts hostp port keymem keylen typemask).reread :=
  check_after_file sampleHosts_storable [] []

/-! ## What was added is found -/

theorem storedKey_cases (a : AddArgs) :
    (∃ key, a.storedKey = pure key) ∨ a.storedKey = throw ErrorCode.alloc.value := by
  unfold AddArgs.storedKey
  split
  · exact .inl ⟨_, rfl⟩
  · split
    · exact .inr rfl
    · exact .inl ⟨_, rfl⟩

theorem storedComment_cases (a : AddArgs) :
    (∃ comment, a.storedComment = pure comment) ∨ a.storedComment = .mk none := by
  unfold AddArgs.storedComment
  split
  · exact .inl ⟨_, rfl⟩
  · split
    · exact .inr rfl
    · exact .inl ⟨_, rfl⟩

/-- The entry of a name that is not hashed. -/
theorem knownhostAdd_ok {hosts hosts' : List HostEntry} {a : AddArgs}
    (hadd : knownhostAdd hosts a = some ⟨0, hosts'⟩)
    (htype : a.typemask.hostType = Typemask.plain ∨ a.typemask.hostType = Typemask.custom) :
    ∃ e ∈ hosts', e.name = cstring a.host ∧ e.typemask = a.typemask ∧ a.storedKey = pure e.key := by
  have hnames : a.names = pure (cstring a.host, []) := by
    rw [AddArgs.names, if_pos htype]
  have hthrow (rc : Int) (hrc : rc ≠ 0) : a.entry ≠ throw rc := by
    intro h
    rw [knownhostAdd, h] at hadd
    simp only [ExceptT.run_throw, Option.pure_def, Option.map_some, Option.some.injEq,
      HostsResult.mk.injEq] at hadd
    exact hrc hadd.1
  have hentry : a.entry = a.storedKey >>= fun key => a.storedComment >>= fun comment => pure {
      name := cstring a.host
      salt := []
      typemask := a.typemask
      key := key
      keyTypeName := if a.typemask.keyMask = keyUnknown then a.keyTypeName else none
      comment := comment } := by
    have hmask : a.typemask.keyMask ≠ 0 := by
      intro hmask
      exact hthrow ErrorCode.inval.value (by decide) (by rw [AddArgs.entry, if_pos hmask])
    rw [AddArgs.entry, if_neg hmask, hnames, pure_bind]
  rcases storedKey_cases a with ⟨key, hkey⟩ | hkey
  · rcases storedComment_cases a with ⟨comment, hcomment⟩ | hcomment
    · rw [hkey, hcomment, pure_bind, pure_bind] at hentry
      rw [knownhostAdd, hentry, ExceptT.run_pure, Option.pure_def, Option.map_some] at hadd
      simp only [Option.some.injEq, HostsResult.mk.injEq, true_and] at hadd
      rw [← hadd]
      exact ⟨_, List.mem_append_right hosts (List.mem_singleton.mpr rfl), rfl, rfl, hkey⟩
    · rw [hkey, hcomment, pure_bind] at hentry
      rw [knownhostAdd, hentry] at hadd
      simp at hadd
  · refine absurd ?_ (hthrow ErrorCode.alloc.value (by decide))
    rw [hentry, hkey]
    rfl

theorem pure_fallible_inj {α : Type} {x y : α} (h : (pure x : Fallible α) = pure y) : x = y := by
  simpa using congrArg ExceptT.run h

theorem base64_not_nul {bs : List UInt8} {insize : Nat} : 0 ∉ base64Encode bs insize :=
  fun h => (encode_word h).1 rfl

/-- The key of an entry is what the same key is looked for as. -/
theorem checkedKey_stored {a : AddArgs} {key : List UInt8} (hkey : a.storedKey = pure key)
    (hlen : a.typemask.isBase64 = true → a.keylen = 0 ∨ a.keylen = strlen a.key) :
    ∃ checked, checkedKey a.key a.keylen a.typemask = some checked ∧
      checked = cstring (key ++ [0]) := by
  unfold AddArgs.storedKey at hkey
  unfold checkedKey
  cases hbase64 : a.typemask.isBase64 with
  | true =>
    have htake : a.key.take (if a.keylen = 0 then strlen a.key else a.keylen) = cstring a.key := by
      rcases hlen hbase64 with h0 | hstr
      · rw [if_pos h0]
        rfl
      · rw [hstr, ite_self]
        rfl
    rw [hbase64, if_pos rfl, htake] at hkey
    refine ⟨cstring a.key, if_pos rfl, ?_⟩
    rw [← pure_fallible_inj hkey, cstring_terminated zero_not_mem_cstring]
  | false =>
    rw [hbase64, if_neg Bool.false_ne_true] at hkey
    by_cases hnil : base64Encode a.key a.keylen = []
    · rw [if_pos hnil] at hkey
      exact absurd (congrArg ExceptT.run hkey) nofun
    · rw [if_neg hnil] at hkey
      refine ⟨base64Encode a.key a.keylen, ?_, ?_⟩
      · rw [if_neg Bool.false_ne_true, if_neg hnil]
      · rw [← pure_fallible_inj hkey, cstring_terminated base64_not_nul]

/-- **What was added is found**: a name that is not hashed and its key match in every collection
that holds their entry, whatever else is in it. -/
theorem check_added {hosts hosts' later : List HostEntry} {a : AddArgs}
    (hadd : knownhostAdd hosts a = some ⟨0, hosts'⟩)
    (htype : a.typemask.hostType = Typemask.plain ∨ a.typemask.hostType = Typemask.custom)
    (hunknown : a.typemask.keyMask ≠ keyUnknown)
    (hlen : a.typemask.isBase64 = true → a.keylen = 0 ∨ a.keylen = strlen a.key)
    (hlater : ∀ e ∈ hosts', e ∈ later) (hmac : HostHmac) {port : Int}
    (hport : 0 ≤ port → (hostWithPort (cstring a.host) port.toNat).length < hostBuffer) :
    (knownhostCheck hmac later a.host port a.key a.keylen a.typemask).verdict = .match := by
  obtain ⟨e, he, hname, hmask, hstored⟩ := knownhostAdd_ok hadd htype
  obtain ⟨checked, hchecked, hkey⟩ := checkedKey_stored hstored hlen
  have hsha1 : a.typemask.hostType ≠ Typemask.sha1 := by
    rcases htype with htype | htype <;> rw [htype] <;> decide
  rw [knownhostCheck_eq hmac later hsha1 hport hchecked, verdictOf_match_iff]
  refine ⟨e, mem_candidates.mpr ⟨hlater e he, ?_, cstring a.host, ?_, ?_⟩, ?_⟩
  · simp [HostEntry.sameKeyType, hmask, hunknown]
  · unfold spellings
    split <;> simp
  · have hterm : cstring (cstring a.host ++ [0]) = cstring a.host :=
      cstring_terminated zero_not_mem_cstring
    unfold HostEntry.isFor
    rcases htype with htype | htype <;> simp [hmask, htype, hname, hterm]
  · simp [HostEntry.hasKey, hkey]

/-- A raw key for a name, and the entry for it. -/
def sampleAdd : AddArgs where
  host := asciiBytes "example.com" ++ [0]
  key := [0, 1, 2]
  keylen := 3
  typemask := Typemask.key 2 ||| Typemask.plain

def sampleAdded : HostEntry where
  name := asciiBytes "example.com"
  typemask := Typemask.key 2 ||| Typemask.plain
  key := asciiBytes "AAEC"

theorem check_added_raw :
    knownhostAdd sampleHosts sampleAdd = some ⟨0, sampleHosts ++ [sampleAdded]⟩ ∧
      ∀ hmac, (knownhostCheck hmac (sampleHosts ++ [sampleAdded]) sampleAdd.host 22 sampleAdd.key
        sampleAdd.keylen sampleAdd.typemask).verdict = .match := by
  have hadd : knownhostAdd sampleHosts sampleAdd = some ⟨0, sampleHosts ++ [sampleAdded]⟩ := by
    decide
  exact ⟨hadd,
    fun hmac => check_added hadd (by decide) (by decide) (by decide) (fun _ he => he) hmac
    (by decide)⟩

end Ssh2Python
