import Ssh2Python.HostKey

/-!
# Which fingerprints come back whole

`Session.hostkey_hash` reads the digest as a C string, and the digest is binary data that no NUL
terminates: `hostkeyHash_eq_iff` says when the result is the digest nevertheless.
-/

namespace Ssh2Python

open Lib.CString

/-- The memory after the digest. -/
theorem HostkeyFields.mem_eq (order : ByteOrder) (s : HostkeyFields) (t : HashType) :
    ∃ behind, s.mem order t = s.digest t ++ (intBytes order (s.valid t) ++ behind) := by
  cases t with
  | md5 => exact ⟨_, rfl⟩
  | sha1 => exact ⟨_, rfl⟩
  | sha256 => exact ⟨_, rfl⟩

theorem libssh2HostkeyHash_valid {s : HostkeyFields} {t : HashType} (order : ByteOrder)
    (h : s.valid t ≠ 0) : libssh2HostkeyHash order s t.value = some (s.mem order t) := by
  cases t with
  | md5 => exact if_pos h
  | sha1 => exact if_pos h
  | sha256 => exact if_pos h

/-- The flag ends the string exactly when its first byte is zero. -/
theorem strlen_intBytes_eq_zero_iff (order : ByteOrder) (x : UInt32) (behind : List UInt8) :
    strlen (intBytes order x ++ behind) = 0 ↔ (intBytes order x).head? = some 0 := by
  have hcons (b : UInt8) (bs : List UInt8) : strlen (b :: bs) = 0 ↔ b = 0 := by
    rw [strlen_cons]
    by_cases hb : b = 0
    · exact iff_of_true (if_pos hb) hb
    · rw [if_neg hb]
      exact iff_of_false (Nat.succ_ne_zero _) hb
  cases order with
  | little => exact (hcons _ _).trans Option.some_inj.symm
  | big => exact (hcons _ _).trans Option.some_inj.symm

/-- **When a fingerprint is the digest**: no byte of the digest is zero, and the first byte of the
flag is. With the flag `TRUE` that is so on a big-endian platform only. -/
theorem hostkeyHash_eq_iff (order : ByteOrder) (s : HostkeyFields) (t : HashType)
    (hvalid : s.valid t ≠ 0) :
    sessionHostkeyHash order s t.value = some (s.digest t) ↔
      0 ∉ s.digest t ∧ (intBytes order (s.valid t)).head? = some 0 := by
  obtain ⟨behind, hmem⟩ := s.mem_eq order t
  rw [sessionHostkeyHash, libssh2HostkeyHash_valid order hvalid, Option.map_some, Option.some_inj,
    hmem, cstring_append_eq_iff, strlen_intBytes_eq_zero_iff]

example : (intBytes .little 1).head? = some 1 := rfl

/-- A session whose MD5 digest is `d`. -/
def md5Session (d : List UInt8) (h : d.length = 16) : HostkeyFields where
  hostkey := []
  hostkeyLen := 0
  md5 := ⟨d, 1, h⟩
  sha1 := ⟨List.replicate 20 0, 0, rfl⟩
  sha256 := ⟨List.replicate 32 0, 0, rfl⟩
  behind := []

/-- A digest without a zero byte on a big-endian platform. -/
theorem hostkeyHash_eq_example :
    sessionHostkeyHash .big (md5Session (List.replicate 16 7) rfl) 1 = some (List.replicate 16 7) :=
  (hostkeyHash_eq_iff .big (md5Session (List.replicate 16 7) rfl) .md5 (by decide)).mpr
    ⟨by decide, rfl⟩

/-- A digest does not come back as it is, and two digests have the same fingerprint. -/
theorem hostkeyHash_not_digest :
    sessionHostkeyHash .little (md5Session (List.replicate 16 7) rfl) 1 ≠
        some (List.replicate 16 7) ∧
      sessionHostkeyHash .little (md5Session (0 :: List.replicate 15 7) rfl) 1 =
        sessionHostkeyHash .little (md5Session (0 :: List.replicate 15 8) rfl) 1 :=
  ⟨by decide, by decide⟩

/-- `Session.hostkey` returns the key, whatever its bytes are. -/
theorem sessionHostkey_eq (s : HostkeyFields) (hlen : s.hostkeyLen ≠ 0) :
    ∃ keyType, sessionHostkey s = .ok (s.hostkey.take s.hostkeyLen.toNat, keyType) := by
  refine ⟨hostkeyType (s.hostkey.take s.hostkeyLen.toNat), ?_⟩
  rw [sessionHostkey, libssh2SessionHostkey, if_pos hlen]

end Ssh2Python
