import Ssh2Python.Sftp
import Ssh2Python.Verify.Write

/-!
# Which operations pass errors on

`traverse` is a listing by its codes alone; the three operations that go on until the data or the
directory ends are instances of it (`sftpHandleIterate_outcome`, `generate_outcome`), and
`traverse_surfaces_iff` says when it passes errors on. `errorsSurface_iff` is every operation.
-/

namespace Ssh2Python

open Lib.CInt

def Outcome.cons (rc : Int) (o : Outcome) : Outcome :=
  { o with codes := rc :: o.codes }

/-- A traversal by the codes its native calls return, `none` for a failed allocation. -/
def traverse (fits : Int → Prop) [DecidablePred fits] : List (Option Int) → Outcome
  | [] => ⟨[], .suspended⟩
  | none :: _ => ⟨[], .raised memoryError⟩
  | some rc :: cs =>
    if ¬fits rc then ⟨[rc], .raised { cls := .overflowError }⟩
    else if rc = eagain ∨ 0 < rc then (traverse fits cs).cons rc
    else ⟨[rc], .normal⟩

/-! ## The listings are traversals -/

theorem sftpHandleIterate_outcome (natives : List (Option NativeFill)) :
    (sftpHandleIterate natives).outcome =
      traverse (fun rc => toInt32 rc = rc) (natives.map (Option.map (·.rc))) := by
  induction natives with
  | nil => rfl
  | cons n ns ih =>
    cases n with
    | none => rfl
    | some r =>
      have hcalls : (sftpHandleNext (some r)).calls = [⟨.read channelWindowDefault, r.rc⟩] := rfl
      simp only [List.map_cons, Option.map_some, traverse]
      by_cases hfits : toInt32 r.rc = r.rc
      · rw [if_neg (not_not_intro hfits)]
        by_cases hgo : r.rc = eagain ∨ 0 < r.rc
        · have hnext : (sftpHandleNext (some r)).result = .ok (.item r.rc r.bytes) := by
            have hstop : ¬(r.rc ≠ eagain ∧ r.rc ≤ 0) := by omega
            simp only [sftpHandleNext, sftpHandleRead, if_neg (not_not_intro hfits), if_neg hstop]
          rw [if_pos hgo, ← ih]
          simp only [sftpHandleIterate, hnext]
          rfl
        · have hnext : (sftpHandleNext (some r)).result = .ok .stopIteration := by
            have hstop : r.rc ≠ eagain ∧ r.rc ≤ 0 := by omega
            simp only [sftpHandleNext, sftpHandleRead, if_neg (not_not_intro hfits), if_pos hstop]
          rw [if_neg hgo]
          simp only [sftpHandleIterate, hnext]
          rfl
      · have hnext : (sftpHandleNext (some r)).result = .error { cls := .overflowError } := by
          simp only [sftpHandleNext, sftpHandleRead, if_pos hfits]
        rw [if_pos hfits]
        simp only [sftpHandleIterate, hnext]
        rfl

section Generate

variable {ν β : Type} {fetch : Option ν → Effect HandleCall β} {rc : β → Int} {update : β → β → β}

/-- A generator whose fetch makes one native call, with its code in the fetched value. -/
theorem generate_outcome (code : ν → Int) (hnone : fetch none = ⟨[], .error memoryError⟩)
    (hsome : ∀ r, ∃ c b, fetch (some r) = ⟨[c], .ok b⟩ ∧ c.rc = code r ∧ rc b = code r)
    (hupdate : ∀ old new, rc (update old new) = rc new) (vars : Option β)
    (natives : List (Option ν)) :
    (generate fetch rc update vars natives).outcome =
      traverse (fun _ => True) (natives.map (Option.map code)) := by
  induction natives generalizing vars with
  | nil => rfl
  | cons n ns ih =>
    cases n with
    | none => simp only [generate, hnone]; rfl
    | some r =>
      obtain ⟨c, b, hfetch, hc, hb⟩ := hsome r
      have hvars : rc (assign update vars b) = code r := by
        cases vars with
        | none => exact hb
        | some old => exact (hupdate old b).trans hb
      simp only [generate, hfetch, hvars, List.map_cons, Option.map_some, traverse, not_true,
        if_false]
      by_cases hgo : code r = eagain ∨ 0 < code r
      · rw [if_pos hgo, if_pos hgo, ← ih (some (assign update vars b))]
        simp only [GenRun.outcome, GenRun.push, Outcome.cons, List.map_cons, hc, List.cons_append,
          List.nil_append]
      · rw [if_neg hgo, if_neg hgo]
        simp only [GenRun.outcome, List.map_cons, List.map_nil, hc]
        rfl

end Generate

theorem sftpHandleReaddir_outcome (maxlen : Nat) (natives : List (Option NativeEntry)) :
    (sftpHandleReaddir maxlen natives).outcome =
      traverse (fun _ => True) (natives.map (Option.map (·.rc))) := by
  refine generate_outcome (fun r : NativeEntry => r.rc) rfl (fun r => ?_) (fun _ _ => rfl) none
    natives
  exact ⟨_, _, rfl, rfl, rfl⟩

theorem sftpHandleReaddirEx_outcome (longentryMaxlen maxlen : Nat)
    (natives : List (Option NativeEntry)) :
    (sftpHandleReaddirEx longentryMaxlen maxlen natives).outcome =
      traverse (fun _ => True) (natives.map (Option.map (·.rc))) := by
  unfold sftpHandleReaddirEx
  refine generate_outcome (fun r : NativeEntry => r.rc) ?_ (fun r => ?_) (fun _ _ => ?_)
    none natives
  · rfl
  · exact ⟨_, _, rfl, rfl, rfl⟩
  · rfl

/-! ## When a traversal passes errors on -/

section Traverse

variable {fits : Int → Prop} {rc : Int} {codes : List (Option Int)}

theorem noErrorReached_nil : NoErrorReached fits [] := by
  intro pre rc post h
  cases pre <;> cases h

theorem noErrorReached_none : NoErrorReached fits (none :: codes) := by
  intro pre rc post h hpre
  cases pre with
  | nil => cases h
  | cons c pre =>
    obtain ⟨rfl, -⟩ := List.cons.inj h
    obtain ⟨p, hp, -⟩ := hpre none List.mem_cons_self
    cases hp

theorem noErrorReached_cons :
    NoErrorReached fits (some rc :: codes) ↔
      ¬IsError rc ∧ (Continues fits rc → NoErrorReached fits codes) := by
  constructor
  · intro h
    refine ⟨h [] rc codes rfl fun c hc => absurd hc List.not_mem_nil, fun hgo => ?_⟩
    intro pre rc' post hsplit hpre
    refine h (some rc :: pre) rc' post (by rw [hsplit]; rfl) fun c hc => ?_
    rcases List.mem_cons.mp hc with rfl | hc
    · exact ⟨rc, rfl, hgo⟩
    · exact hpre c hc
  · rintro ⟨hfirst, hrest⟩ pre rc' post hsplit hpre
    cases pre with
    | nil =>
      obtain ⟨h, -⟩ := List.cons.inj hsplit
      exact Option.some.inj h ▸ hfirst
    | cons c pre =>
      obtain ⟨rfl, hcodes⟩ := List.cons.inj hsplit
      obtain ⟨p, hp, hgo⟩ := hpre (some rc) List.mem_cons_self
      obtain rfl := Option.some.inj hp
      exact hrest hgo pre rc' post hcodes fun c hc => hpre c (List.mem_cons_of_mem _ hc)

theorem Outcome.surfaces_nil {e : Ending} : Outcome.Surfaces ⟨[], e⟩ := by
  intro pre rc post h
  cases pre <;> cases h

theorem Outcome.surfaces_one {e : Ending} :
    Outcome.Surfaces ⟨[rc], e⟩ ↔ (IsError rc → ∃ exc, e = .raised exc ∧ exc.IsSSH2Error) := by
  constructor
  · intro h herr
    exact (h [] rc [] rfl herr).2
  · intro h pre rc' post hsplit herr
    cases pre with
    | nil =>
      obtain ⟨rfl, rfl⟩ := List.cons.inj hsplit
      exact ⟨rfl, h herr⟩
    | cons c pre =>
      have := (List.cons.inj hsplit).2
      cases pre <;> cases this

theorem Outcome.surfaces_cons {o : Outcome} (hrc : ¬IsError rc) :
    (o.cons rc).Surfaces ↔ o.Surfaces := by
  constructor
  · intro h pre rc' post hsplit herr
    refine h (rc :: pre) rc' post ?_ herr
    show rc :: o.codes = _
    rw [hsplit]
    rfl
  · intro h pre rc' post hsplit herr
    cases pre with
    | nil => exact absurd ((List.cons.inj hsplit).1 ▸ herr) hrc
    | cons c pre => exact h pre rc' post (List.cons.inj hsplit).2 herr

variable [DecidablePred fits]

/-- **A traversal passes errors on** exactly when it meets none: it has no way to report one. -/
theorem traverse_surfaces_iff (codes : List (Option Int)) :
    (traverse fits codes).Surfaces ↔ NoErrorReached fits codes := by
  have hoverflow : ¬PyExc.IsSSH2Error { cls := .overflowError } := by decide
  induction codes with
  | nil => exact iff_of_true Outcome.surfaces_nil noErrorReached_nil
  | cons c cs ih =>
    cases c with
    | none => exact iff_of_true Outcome.surfaces_nil noErrorReached_none
    | some rc =>
      rw [noErrorReached_cons, traverse]
      by_cases hfits : fits rc
      · rw [if_neg (not_not_intro hfits)]
        by_cases hgo : rc = eagain ∨ 0 < rc
        · have hok : ¬IsError rc := by
            rintro ⟨hneg, hE⟩
            rcases hgo with hgo | hgo
            · exact hE hgo
            · omega
          rw [if_pos hgo]
          refine ((Outcome.surfaces_cons hok).trans ih).trans ?_
          exact ⟨fun h => ⟨hok, fun _ => h⟩, fun h => h.2 ⟨hfits, hgo⟩⟩
        · rw [if_neg hgo, Outcome.surfaces_one]
          constructor
          · intro h
            refine ⟨fun herr => ?_, fun hc => absurd hc.2 hgo⟩
            obtain ⟨exc, hexc, -⟩ := h herr
            cases hexc
          · exact fun h herr => absurd herr h.1
      · rw [if_pos hfits, Outcome.surfaces_one]
        constructor
        · intro h
          refine ⟨fun herr => ?_, fun hc => absurd hc.1 hfits⟩
          obtain ⟨exc, hexc, hssh⟩ := h herr
          exact hoverflow (Ending.raised.inj hexc ▸ hssh)
        · exact fun h herr => absurd herr h.1

/-- A traversal that passes errors on ends without one only after the result `0`. -/
theorem traverse_normal (codes : List (Option Int)) (hnone : NoErrorReached fits codes)
    (h : (traverse fits codes).ending = .normal) :
    (traverse fits codes).codes.getLast? = some 0 := by
  induction codes with
  | nil => cases h
  | cons c cs ih =>
    cases c with
    | none => cases h
    | some rc =>
      obtain ⟨hok, hrest⟩ := noErrorReached_cons.mp hnone
      rw [traverse] at h ⊢
      by_cases hfits : fits rc
      · rw [if_neg (not_not_intro hfits)] at h ⊢
        by_cases hgo : rc = eagain ∨ 0 < rc
        · rw [if_pos hgo] at h ⊢
          have hlast := ih (hrest ⟨hfits, hgo⟩) h
          show (rc :: (traverse fits cs).codes).getLast? = some 0
          rw [List.getLast?_cons, hlast]
          rfl
        · rw [if_neg hgo]
          have hzero : rc = 0 := by
            by_contra hne
            exact hok ⟨by omega, fun hE => hgo (.inl hE)⟩
          rw [hzero]
          rfl
      · rw [if_pos hfits] at h
        cases h

end Traverse

/-! ## The operations that translate their codes -/

/-- A code that `handle_error_codes` was given surfaces. -/
theorem handleErrorCodes_surfaces {α : Type} {rc : Int} (f : Int → α) (herr : IsError rc) :
    ∃ e, (handleErrorCodes rc).map f = .error e ∧ e.IsSSH2Error := by
  obtain ⟨e, he, hs⟩ := handleErrorCodes_raises herr.1 herr.2
  exact ⟨e, by rw [he]; rfl, hs⟩

theorem writeLoop_surfaces (fn : NativeWrite) (tot : Nat) (results : List Int) (ptr rem : Nat)
    (rc : Int) (hint : ∀ r ∈ results, -2 ^ 31 ≤ r) :
    Outcome.Surfaces ⟨(writeLoop fn tot results ptr rem rc).calls.map (·.rc),
      (writeLoop fn tot results ptr rem rc).status.ending⟩ := by
  induction results generalizing ptr rem rc with
  | nil =>
    rcases Nat.eq_zero_or_pos rem with rfl | hrem
    · rw [writeLoop_done]
      exact Outcome.surfaces_nil
    · rw [writeLoop_blocked fn tot ptr rc (Nat.ne_of_gt hrem)]
      exact Outcome.surfaces_nil
  | cons r rs ih =>
    rcases Nat.eq_zero_or_pos rem with rfl | hrem
    · rw [writeLoop_done]
      exact Outcome.surfaces_nil
    · have hne : rem ≠ 0 := by omega
      rcases result_cases r with ⟨hneg, hE⟩ | rfl | hr
      · rw [writeLoop_error fn tot ptr rc rs hne hneg hE]
        obtain ⟨e, he, hs⟩ := returnErrorCode_raises (hint r List.mem_cons_self) hneg hE
        exact Outcome.surfaces_one.mpr fun _ => ⟨e, by rw [he]; rfl, hs⟩
      · rw [writeLoop_eagain fn tot ptr rc rs hne]
        exact Outcome.surfaces_one.mpr fun herr => absurd rfl herr.2
      · rw [writeLoop_count fn tot ptr rc rs hne hr]
        have hok : ¬IsError r := fun herr => absurd herr.1 (by omega)
        exact (Outcome.surfaces_cons hok).mpr
          (ih _ _ r fun x hx => hint x (List.mem_cons_of_mem r hx))

theorem sftpHandleWrite_surfaces (buf : PyObj) (results : List Int)
    (hint : ∀ r ∈ results, -2 ^ 31 ≤ r) : (TransferOp.write buf results).outcome.Surfaces := by
  cases buf with
  | bytes b => exact writeLoop_surfaces .sftpWrite b.length results 0 b.length 0 hint
  | text s => exact Outcome.surfaces_nil
  | none => exact Outcome.surfaces_nil
  | other => exact Outcome.surfaces_nil

theorem sftpHandleFsync_surfaces (rc : Int) : (TransferOp.fsync rc).outcome.Surfaces := by
  refine Outcome.surfaces_one.mpr fun herr => ?_
  obtain ⟨e, he, hs⟩ := handleErrorCodes_raises herr.1 herr.2
  exact ⟨e, by rw [Effect.ending, sftpHandleFsync, he], hs⟩

theorem sftpRealpath_surfaces (path : PyObj) (maxLen : Nat) (native : Option NativeFill) :
    (TransferOp.realpath path maxLen native).outcome.Surfaces := by
  simp only [TransferOp.outcome, sftpRealpath]
  by_cases hpath : path = .none
  · rw [if_pos hpath]
    exact Outcome.surfaces_nil
  · rw [if_neg hpath]
    cases native with
    | none => exact Outcome.surfaces_nil
    | some r =>
      cases hb : bytesArg path with
      | error e => exact Outcome.surfaces_nil
      | ok p =>
        refine Outcome.surfaces_one.mpr fun herr => ?_
        obtain ⟨e, he, hs⟩ := handleErrorCodes_surfaces RealpathResult.code herr
        have hneg : r.rc < 0 := herr.1
        refine ⟨e, ?_, hs⟩
        simp only [Effect.ending, if_pos hneg]
        rw [he]

/-! ## Every operation -/

/-- **When errors surface**: `write`, `fsync` and `realpath` always pass a native error on; `read`,
`close`, the iteration and the two listings do exactly when they meet none. -/
theorem errorsSurface_iff (op : TransferOp) (hint : op.IntCodes) :
    op.ErrorsSurface ↔ op.ErrorFree := by
  have hplain (hsurf : op.outcome.Surfaces ↔ op.ErrorFree) (h : op.traverses = false) :
      op.ErrorsSurface ↔ op.ErrorFree := by
    rw [← hsurf]
    exact and_iff_left fun h' => by rw [h] at h'; cases h'
  have htraverse {fits : Int → Prop} [DecidablePred fits] {codes : List (Option Int)}
      (hout : op.outcome = traverse fits codes) (hfree : op.ErrorFree ↔ NoErrorReached fits codes) :
      op.ErrorsSurface ↔ op.ErrorFree := by
    rw [hfree, TransferOp.ErrorsSurface, hout, traverse_surfaces_iff]
    exact and_iff_left_of_imp fun hnone _ h => traverse_normal codes hnone h
  cases op with
  | read maxlen native =>
    refine hplain ?_ rfl
    cases native with
    | none => exact iff_of_true Outcome.surfaces_nil fun r h => by cases h
    | some r =>
      refine Outcome.surfaces_one.trans ⟨fun h r' hr' herr => ?_,
        fun h herr => absurd herr (h r rfl)⟩
      obtain rfl := Option.some.inj hr'
      obtain ⟨e, he, -⟩ := h herr
      cases he
  | iterate natives => exact htraverse (sftpHandleIterate_outcome natives) Iff.rfl
  | readdir maxlen natives => exact htraverse (sftpHandleReaddir_outcome maxlen natives) Iff.rfl
  | readdirEx lmax maxlen natives =>
    exact htraverse (sftpHandleReaddirEx_outcome lmax maxlen natives) Iff.rfl
  | write buf results =>
    exact hplain (iff_of_true (sftpHandleWrite_surfaces buf results hint) trivial) rfl
  | close h rc =>
    refine hplain ?_ rfl
    obtain ⟨closed⟩ := h
    cases closed with
    | true => exact iff_of_true Outcome.surfaces_nil (.inl rfl)
    | false =>
      refine Outcome.surfaces_one.trans ⟨fun hs => .inr fun herr => ?_, fun hs herr => ?_⟩
      · obtain ⟨e, he, -⟩ := hs herr
        cases he
      · exact absurd herr (hs.resolve_left Bool.false_ne_true)
  | fsync rc => exact hplain (iff_of_true (sftpHandleFsync_surfaces rc) trivial) rfl
  | realpath path maxLen native =>
    exact hplain (iff_of_true (sftpRealpath_surfaces path maxLen native) trivial) rfl

/-- A write whose second native call fails. -/
theorem errorsSurface_write :
    (TransferOp.write (.bytes ⟨[1, 2, 3], by decide⟩) [2, -7]).ErrorsSurface :=
  (errorsSurface_iff _ (by intro r hr; simp at hr; omega)).mpr trivial

/-- A connection that breaks after the first block of a file ends the iteration like the end of the
file. -/
theorem iterate_error_lost :
    ¬(TransferOp.iterate [some ⟨1, [120]⟩, some ⟨-13, []⟩]).ErrorsSurface := by
  rintro ⟨hsurf, -⟩
  obtain ⟨-, e, he, -⟩ := hsurf [1] (-13) [] rfl (by decide)
  cases he

end Ssh2Python
