import Ssh2Python.PublicKeyFetch

/-!
# What `list_fetch` returns

On a list of keys the native call writes through the NULL pointer it was passed, so the method ends
only with an error code (`listFetchKeys_faithful_iff`). A pointer to a variable would not be enough:
`listFetchThrough_faithful_iff` is the same for any pointer, and only the empty list is gained,
because no object shows a key.
-/

namespace Ssh2Python

/-! ## The objects -/

theorem PublicKeyList.not_shows (o : PublicKeyList) (k : ReportedKey) : ¬o.Shows k := by
  intro h
  have hname := h.name
  unfold PublicKeyList.name PublicKeyList.attr at hname
  cases hname

/-- Only the empty list of keys is shown. -/
theorem shows_iff_nil {reported : List ReportedKey} :
    (∃ objs, List.Forall₂ PublicKeyList.Shows objs reported) ↔ reported = [] := by
  constructor
  · rintro ⟨objs, hshows⟩
    cases hshows with
    | nil => rfl
    | cons h _ => exact absurd h (PublicKeyList.not_shows _ _)
  · rintro rfl
    exact ⟨[], .nil⟩

/-! ## The array -/

theorem freedLast_nil {calls : List KeysCall} (h : calls.filterMap KeysCall.freed = []) :
    FreedLast calls [] none := by
  intro gone left hperm
  obtain ⟨rfl, rfl⟩ := List.append_eq_nil_iff.mp (List.perm_nil.mp hperm)
  simpa using h

/-! ## `list_fetch` -/

namespace PublicKeySystem

variable (p : PublicKeySystem) (pkeyList : Option (Nat → Option Nat))

/-- A code comes back, or is raised, whatever the pointer is. -/
theorem listFetchThrough_code (rc : Int) (ne : rc ≠ 0) :
    p.listFetchThrough pkeyList (.code rc ne) =
      ⟨[.listFetch p.pkeyS], (handleErrorCodes rc).map fun v => some (.code v)⟩ := by
  unfold listFetchThrough
  dsimp only
  cases handleErrorCodes rc <;> rfl

theorem listFetchThrough_null {ks : List ReportedKey} {array : Option Nat}
    (alloc : array = none ↔ ks = []) :
    p.listFetchThrough none (.keys ks array alloc) = ⟨[.listFetch p.pkeyS], .ok none⟩ := rfl

theorem listFetchThrough_nil (cells : Nat → Option Nat) {array : Option Nat}
    (alloc : array = none ↔ [] = []) :
    p.listFetchThrough (some cells) (.keys [] array alloc) =
      ⟨[.listFetch p.pkeyS], .ok (some (.keys []))⟩ := rfl

theorem code_faithful (rc : Int) (ne : rc ≠ 0) :
    (NativeKeys.code rc ne).Faithful (p.listFetchThrough pkeyList (.code rc ne)) := by
  intro herror
  obtain ⟨e, he, hssh2⟩ := handleErrorCodes_raises herror.1 herror.2
  refine ⟨e, ?_, hssh2⟩
  rw [listFetchThrough_code, he]
  rfl

/-- **For any pointer**: besides the codes only the empty list comes back as it should, and that one
if there is a place to store the array. -/
theorem listFetchThrough_faithful_iff (native : NativeKeys) :
    native.Faithful (p.listFetchThrough pkeyList native) ↔
      native.Fails ∨ pkeyList ≠ none ∧ native.reported = [] := by
  cases native with
  | code rc ne => exact iff_of_true (p.code_faithful pkeyList rc ne) (.inl trivial)
  | keys ks array alloc =>
    constructor
    · rintro ⟨objs, hresult, hshows, -⟩
      refine .inr ⟨?_, shows_iff_nil.mp ⟨objs, hshows⟩⟩
      rintro rfl
      rw [listFetchThrough_null] at hresult
      cases hresult
    · rintro (hfails | ⟨hptr, hnil⟩)
      · exact absurd hfails id
      · obtain ⟨cells, rfl⟩ := Option.ne_none_iff_exists'.mp hptr
        obtain rfl : ks = [] := hnil
        obtain rfl : array = none := alloc.mpr rfl
        refine ⟨[], ?_, .nil, ?_⟩
        · rw [listFetchThrough_nil]
        · rw [listFetchThrough_nil]
          exact freedLast_nil rfl

/-- **`list_fetch`** does what it should exactly when the native call fails: no list of keys comes
back. -/
theorem listFetchKeys_faithful_iff (native : NativeKeys) :
    native.Faithful (p.listFetchKeys native) ↔ native.Fails := by
  unfold listFetchKeys
  rw [listFetchThrough_faithful_iff]
  simp

/-- The method with the code alone, which is what the runs of `PublicKeySystem` are about. -/
theorem listFetchKeys_result (native : NativeKeys) :
    (p.listFetchKeys native).result = (p.listFetch native.rc).result.map (Option.map .code) := by
  cases native with
  | code rc ne =>
    have hrc : (NativeKeys.code rc ne).rc = rc := rfl
    rw [listFetchKeys, listFetchThrough_code, hrc]
    unfold listFetch
    rw [if_neg ne]
    cases handleErrorCodes rc <;> rfl
  | keys ks array alloc => rfl

end PublicKeySystem

/-- The process crashes when the server reports a key, and when it reports none. -/
theorem listFetchKeys_crashes :
    (∃ ks array alloc, ks ≠ [] ∧
      ((⟨some 0, true⟩ : PublicKeySystem).listFetchKeys (.keys ks array alloc)).result = .ok none ∧
      ¬(NativeKeys.keys ks array alloc).Faithful
        ((⟨some 0, true⟩ : PublicKeySystem).listFetchKeys (.keys ks array alloc))) ∧
    ∃ alloc,
      ((⟨some 0, true⟩ : PublicKeySystem).listFetchKeys (.keys [] none alloc)).result = .ok none ∧
      ¬(NativeKeys.keys [] none alloc).Faithful
        ((⟨some 0, true⟩ : PublicKeySystem).listFetchKeys (.keys [] none alloc)) := by
  constructor
  · refine ⟨[⟨"ssh-rsa".toUTF8.toList, [0, 1], []⟩], some 1, by decide, by decide, rfl, ?_⟩
    rintro ⟨objs, hresult, -⟩
    cases hresult
  · refine ⟨by decide, rfl, ?_⟩
    rintro ⟨objs, hresult, -⟩
    cases hresult

end Ssh2Python
