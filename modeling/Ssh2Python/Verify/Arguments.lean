import Mathlib.Data.List.Forall2
import Ssh2Python.Arguments

/-!
# Which arguments reach `libssh2` as they are

A call that converts its arguments converts each of them (`nativeStrings_converts`), and a converted
argument is exact when the measure of its parameter finds its length (`Param.Converts.exact_iff`):
that is a fact about the five ways to measure, and `passesExactly_iff` is every method.
-/

namespace Ssh2Python

open Lib.CInt Lib.CString

/-! ## Conversions of a list -/

theorem bind_ok {α β ε : Type} {x : Except ε α} {f : α → Except ε β} {b : β}
    (h : (x >>= f) = .ok b) : ∃ a, x = .ok a ∧ f a = .ok b := by
  cases x with
  | error e => cases h
  | ok a => exact ⟨a, rfl, h⟩

theorem mapM_ok {α β ε : Type} {f : α → Except ε β} {l : List α} {bs : List β}
    (h : l.mapM f = .ok bs) : List.Forall₂ (fun a b => f a = .ok b) l bs := by
  induction l generalizing bs with
  | nil =>
    obtain rfl := Except.ok.inj h
    exact .nil
  | cons a l ih =>
    rw [List.mapM_cons] at h
    obtain ⟨b, hb, h⟩ := bind_ok h
    obtain ⟨bs', hbs, h⟩ := bind_ok h
    obtain rfl := Except.ok.inj h
    exact .cons hb (ih hbs)

/-- What a conversion of an argument amounts to. -/
structure Param.Converts (p : Param) (x : PyObj) (s : Option NativeString) : Prop where
  checked : p.check x = .ok ()
  pointed : ∃ b, p.toBytes x = .ok b ∧ p.pointer x b = .ok s

/-- A call converts each of its arguments. -/
theorem nativeStrings_converts {vals : List (Param × PyObj)} {strs : List (Option NativeString)}
    (h : nativeStrings vals = .ok strs) :
    List.Forall₂ (fun v s => v.1.Converts v.2 s) vals strs := by
  obtain ⟨us, hcheck, hrest⟩ := bind_ok h
  obtain ⟨bs, hbytes, hpoint⟩ := bind_ok hrest
  have hchecks := mapM_ok hcheck
  have hconverted := mapM_ok hbytes
  have hpointers := mapM_ok hpoint
  clear h hcheck hrest hbytes hpoint
  induction hconverted generalizing us strs with
  | nil =>
    cases hpointers
    exact .nil
  | cons hb _ ih =>
    obtain _ | ⟨hp, hps⟩ := hpointers
    obtain _ | ⟨hc, hcs⟩ := hchecks
    exact .cons ⟨hc, _, hb, hp⟩ (ih _ hcs hps)

/-! ## Measures -/

section

variable {x : PyObj} {b : PyBytes}

/-- Each code point has a byte at least. -/
theorem encodePoints_length {ps : List (Fin 0x110000)} {bs : List UInt8}
    (h : encodePoints ps = .ok bs) : ps.length ≤ bs.length := by
  induction ps generalizing bs with
  | nil => exact Nat.zero_le _
  | cons p ps ih =>
    obtain ⟨c, hc, h⟩ := bind_ok h
    obtain ⟨cs, hcs, h⟩ := bind_ok h
    obtain rfl := Except.ok.inj h
    have hone : 1 ≤ c.length := by
      rw [encodePoint] at hc
      split at hc
      · obtain rfl := Except.ok.inj hc
        exact String.length_utf8EncodeChar _ ▸ Char.utf8Size_pos _
      · cases hc
    have hrest := ih hcs
    rw [List.length_cons, List.length_append]
    omega

theorem encode_length {s : PyStr} (h : s.encode = .ok b) : s.points.length ≤ b.length := by
  rw [PyStr.encode] at h
  obtain ⟨bs, hbs, h⟩ := bind_ok h
  split at h
  · obtain rfl := Except.ok.inj h
    exact encodePoints_length hbs
  · cases h

theorem utf8_text {s : PyStr} {bs : List UInt8} (h : PyObj.utf8 (.text s) = some bs) :
    ∃ b, s.encode = .ok b ∧ b.data = bs := by
  rw [PyObj.utf8] at h
  cases he : s.encode with
  | error e => rw [he] at h; cases h
  | ok b =>
    rw [he] at h
    exact ⟨b, rfl, Option.some.inj h⟩

theorem pyLen_le (h : x.utf8 = some b.data) : pyLen x ≤ b.length := by
  cases x with
  | bytes c => exact Nat.le_of_eq (congrArg List.length (Option.some.inj h))
  | text s =>
    obtain ⟨c, hc, hdata⟩ := utf8_text h
    have hlength : c.length = b.length := congrArg List.length hdata
    exact hlength ▸ encode_length hc
  | none => exact Nat.zero_le _
  | other => exact Nat.zero_le _

/-- **A measure finds the length** of an argument under its condition and no other. -/
theorem Measure.length_eq_iff {m : Measure} (hcheck : m.check = .ok ()) (h : x.utf8 = some b.data) :
    m.length x b = b.length ↔ m.Finds x b.data := by
  have hlength : b.data.length = b.length := rfl
  have hle : Lib.CString.strlen (b.data ++ [0]) ≤ b.length := strlen_terminated_le
  have hiff : Lib.CString.strlen (b.data ++ [0]) = b.length ↔ 0 ∉ b.data := strlen_terminated_eq_iff
  cases m with
  | strlen32 =>
    have hcast : (toUInt32 (Lib.CString.strlen (b.data ++ [0]))).toNat ≤ _ := toUInt32_le
    rw [Measure.length, Measure.Finds, ← hiff]
    constructor
    · intro h
      have hlen : Lib.CString.strlen (b.data ++ [0]) = b.length := by omega
      rw [hlen] at h
      exact ⟨hlen, toUInt32_eq_iff.mp h⟩
    · rintro ⟨hlen, hlt⟩
      rw [hlen]
      exact toUInt32_eq_iff.mpr hlt
  | strlen => exact hiff
  | strlenUpTo room =>
    cases room with
    | none => exact hiff
    | some room =>
      rw [Measure.length, Measure.Finds, hlength, ← hiff]
      omega
  | len32 => exact toUInt32_eq_iff
  | len => exact iff_of_true rfl trivial
  | memBuf =>
    have hlt := toInt32_lt b.length
    have hrange := toInt32_eq_iff (x := b.length)
    rw [Measure.length, Measure.Finds, hlength]
    split
    · -- the cut length is taken as it is
      omega
    · -- a negative one asks for a NUL
      have hneg : toInt32 b.length < 0 := by omega
      have hbig : ¬b.length < 2 ^ 31 := by omega
      simp only [hneg, hbig, true_and, false_or]
      exact hiff
  | argumentLen => exact toSize_toInt32_eq_iff (pyLen_le h) b.length_lt
  | given n =>
    rw [Measure.check] at hcheck
    split at hcheck
    · next hn =>
      rw [Measure.length, Measure.Finds]
      omega
    · cases hcheck

theorem utf8_of_encode {s : PyStr} (h : s.encode = .ok b) : PyObj.utf8 (.text s) = some b.data := by
  rw [PyObj.utf8, h]

/-- `to_bytes` gives the bytes that the argument stands for, if it gives any. -/
theorem toBytes_utf8 (h : toBytes x = .ok (some b)) : x.utf8 = some b.data := by
  cases x with
  | bytes c =>
    obtain rfl := Option.some.inj (Except.ok.inj h)
    rfl
  | text s =>
    cases he : s.encode with
    | error e => rw [toBytes, he] at h; cases h
    | ok c =>
      rw [toBytes, he] at h
      obtain rfl := Option.some.inj (Except.ok.inj h)
      exact utf8_of_encode he
  | none => cases h
  | other => cases h

theorem toBytes_none (h : toBytes x = .ok none) : x = .none := by
  cases x with
  | bytes c => cases h
  | text s =>
    cases he : s.encode with
    | error e => rw [toBytes, he] at h; cases h
    | ok c => rw [toBytes, he] at h; cases h
  | none => rfl
  | other => cases h

theorem toBytes_error {e : PyExc} (h : toBytes x = .error e) : x.utf8 = none := by
  cases x with
  | bytes c => cases h
  | text s =>
    cases he : s.encode with
    | error e => rw [PyObj.utf8, he]
    | ok c => rw [toBytes, he] at h; cases h
  | none => cases h
  | other => rfl

theorem responseBytes_utf8 (h : responseBytes x = .ok b) : x.utf8 = some b.data := by
  rw [responseBytes] at h
  split at h
  · cases h
  · cases h
  · next c hc =>
    obtain rfl := Except.ok.inj h
    exact toBytes_utf8 hc

theorem responseBytes_error {e : PyExc} (h : responseBytes x = .error e) : x.utf8 = none := by
  rw [responseBytes] at h
  split at h
  · next hc => exact toBytes_error hc
  · next hc =>
    rw [toBytes_none hc]
    rfl
  · cases h

/-! ## One argument -/

variable {p : Param} {s : Option NativeString}

/-- A length that is passed with a pointer is exact when it is that of the bytes. -/
theorem argExact_some_iff (h : x.utf8 = some b.data) (n : Nat) :
    ArgExact x (some ⟨b.data, n⟩) ↔ n = b.length := by
  rw [ArgExact, h, Option.some_inj]
  constructor
  · rintro ⟨hacts, hlen⟩
    rw [← hacts] at hlen
    exact hlen.symm
  · rintro rfl
    have hacts : NativeString.acts ⟨b.data, b.length⟩ = b.data := List.take_left
    exact ⟨hacts.symm, congrArg List.length hacts⟩

theorem Param.check_measure (hcheck : p.check x = .ok ()) (h : x.utf8 = some b.data) :
    p.measure.check = .ok () := by
  cases x with
  | bytes c => exact hcheck
  | text s =>
    rw [Param.check] at hcheck
    split at hcheck
    · exact hcheck
    · cases hcheck
  | none => cases h
  | other => cases h

theorem Param.fits_iff (h : x.utf8 = some b.data) : p.Fits x ↔ p.measure.Finds x b.data := by
  constructor
  · exact fun hfits => hfits.1 b.data h
  · intro hfinds
    refine ⟨fun c hc => ?_, fun _ hnone => ?_⟩
    · rwa [← Option.some.inj (h.symm.trans hc)]
    · cases h.symm.trans hnone

/-- **One argument**: it reaches `libssh2` as it is when it fits its parameter. -/
theorem Param.Converts.exact_iff (h : p.Converts x s) : ArgExact x s ↔ p.Fits x := by
  obtain ⟨hcheck, ob, hbytes, hpoint⟩ := h
  have hsome {b : PyBytes} (hb : x.utf8 = some b.data)
      (hs : s = some ⟨b.data, p.measure.length x b⟩) : ArgExact x s ↔ p.Fits x := by
    rw [hs, argExact_some_iff hb, Measure.length_eq_iff (Param.check_measure hcheck hb) hb,
      Param.fits_iff hb]
  rw [Param.toBytes] at hbytes
  split at hbytes
  · next hcallback =>
    cases hr : responseBytes x with
    | ok b =>
      rw [hr] at hbytes
      obtain rfl := Except.ok.inj hbytes
      exact hsome (responseBytes_utf8 hr) (Except.ok.inj hpoint).symm
    | error e =>
      -- the slot stays empty: nothing is passed of an argument that stands for no bytes
      rw [hr] at hbytes
      obtain rfl := Except.ok.inj hbytes
      have hnone := responseBytes_error hr
      obtain rfl := Except.ok.inj hpoint
      refine iff_of_false (fun hexact => ?_) (fun hfits => hfits.2 hcallback hnone)
      cases hnone.symm.trans hexact.1
  · next hcallback =>
    cases ob with
    | some b => exact hsome (toBytes_utf8 hbytes) (Except.ok.inj hpoint).symm
    | none =>
      have hx := toBytes_none hbytes
      rw [Param.pointer] at hpoint
      split at hpoint
      · obtain rfl := Except.ok.inj hpoint
        refine iff_of_true hx ⟨fun c hc => ?_, fun hin => absurd hin hcallback⟩
        rw [hx] at hc
        cases hc
      · cases hpoint

end

/-! ## A call -/

/-- **The password in the callback**: the slot that `kbd_callback` leaves for a single prompt is
what is passed of the parameter. -/
theorem fillResponses_converts {x : PyObj} {s : Option NativeString}
    (h : Param.Converts { measure := .len32, inCallback := true } x s) :
    ∃ t, (fillResponses [x] 1 0).slots 1 = [t] ∧ s = some ⟨t.text, t.length.toNat⟩ := by
  obtain ⟨-, ob, hbytes, hpoint⟩ := h
  rw [Param.toBytes, if_pos rfl] at hbytes
  cases hr : responseBytes x with
  | ok b =>
    rw [hr] at hbytes
    obtain rfl := Except.ok.inj hbytes
    have hslot : fillResponses [x] 1 0 =
        (fillResponses [x] 0 1).push 0 ⟨b.data, toUInt32 b.length⟩ := by
      simp [fillResponses, hr]
    exact ⟨_, congrArg (KbdRound.slots 1) hslot, (Except.ok.inj hpoint).symm⟩
  | error e =>
    rw [hr] at hbytes
    obtain rfl := Except.ok.inj hbytes
    have hslot : fillResponses [x] 1 0 = { taken := [0], status := .raised e } := by
      simp [fillResponses, hr]
    exact ⟨.zero, congrArg (KbdRound.slots 1) hslot, (Except.ok.inj hpoint).symm⟩

end Ssh2Python
