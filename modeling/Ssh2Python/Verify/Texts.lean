import Ssh2Python.Texts
import Ssh2Python.Verify.Arguments

/-!
# Text and its encoding do the same

The conversions do not tell a text from its encoding (`Twin.bytesArg_eq`), so twins pass the same
strings, with the same lengths if these are measured on the bytes (`nativeStrings_congr`). One
method measures the argument instead, and one quotes it in its exception: `textRun_eq_iff`.
-/

namespace Ssh2Python

open Lib.CInt

/-! ## Conversions -/

section

variable {x x' : PyObj}

theorem Twin.toBytes_eq (h : Twin x x') : toBytes x' = toBytes x := by
  cases h with
  | same => rfl
  | encoded h =>
    rw [toBytes, toBytes, h]
    rfl

theorem Twin.none_iff (h : Twin x x') : x' = .none ↔ x = .none := by
  cases h with
  | same => rfl
  | encoded h => exact iff_of_false PyObj.noConfusion PyObj.noConfusion

theorem bytesArg_some (hx : x ≠ .none) :
    bytesArg x = match toBytes x with
      | .error e => .error e
      | .ok none => .error { cls := .typeError }
      | .ok (some b) => .ok b := by
  cases x with
  | none => exact absurd rfl hx
  | bytes => rfl
  | text => rfl
  | other => rfl

theorem Twin.bytesArg_eq (h : Twin x x') : bytesArg x' = bytesArg x := by
  by_cases hx : x = .none
  · rw [hx, h.none_iff.mpr hx]
  · rw [bytesArg_some hx, bytesArg_some (mt h.none_iff.mp hx), h.toBytes_eq]

theorem Twin.responseBytes_eq (h : Twin x x') : responseBytes x' = responseBytes x := by
  rw [responseBytes, responseBytes, h.toBytes_eq]

/-- Only `len` of the argument tells a text from its encoding. -/
theorem Measure.length_congr {m : Measure} (b : PyBytes)
    (h : m = .argumentLen → toSize (toInt32 (pyLen x')) = toSize (toInt32 (pyLen x))) :
    m.length x' b = m.length x b := by
  cases m with
  | argumentLen => exact h rfl
  | strlen32 => rfl
  | strlen => rfl
  | strlenUpTo room => cases room <;> rfl
  | len32 => rfl
  | len => rfl
  | memBuf => rfl
  | given => rfl

/-- Two arguments of a parameter that are checked and converted alike. -/
structure Param.Matches (p : Param) (x x' : PyObj) : Prop where
  check : p.check x' = p.check x
  toBytes : p.toBytes x' = p.toBytes x
  pointer : ∀ b, p.pointer x' b = p.pointer x b

theorem Twin.matches {p : Param} (h : Twin x x') (ht : p.text = true)
    (hlen : p.measure = .argumentLen → toSize (toInt32 (pyLen x')) = toSize (toInt32 (pyLen x))) :
    p.Matches x x' where
  check := by
    cases h with
    | same => rfl
    | encoded => exact (if_pos ht).symm
  toBytes := by rw [Param.toBytes, Param.toBytes, h.toBytes_eq, h.responseBytes_eq]
  pointer b := by
    cases b with
    | none => rfl
    | some b => rw [Param.pointer, Param.pointer, Measure.length_congr b hlen]

theorem Param.matches_self (p : Param) (x : PyObj) : p.Matches x x :=
  ⟨rfl, rfl, fun _ => rfl⟩

end

/-! ## Calls -/

theorem mapM_congr {α β ε : Type} {R : α → α → Prop} {f : α → Except ε β} {l l' : List α}
    (h : List.Forall₂ R l l') (hf : ∀ a a', R a a' → f a' = f a) : l'.mapM f = l.mapM f := by
  induction h with
  | nil => rfl
  | cons hR _ ih => rw [List.mapM_cons, List.mapM_cons, hf _ _ hR, ih]

theorem forall₂_zip {α β : Type} {R : α → α → Prop} {l l' : List α} (h : List.Forall₂ R l l')
    (bs : List β) :
    List.Forall₂ (fun v v' => R v.1 v'.1 ∧ v'.2 = v.2) (l.zip bs) (l'.zip bs) := by
  induction h generalizing bs with
  | nil => exact .nil
  | cons hR _ ih =>
    cases bs with
    | nil => exact .nil
    | cons b bs => exact .cons ⟨hR, rfl⟩ (ih bs)

/-- The values of two calls, parameter by parameter. -/
abbrev Matched (vals vals' : List (Param × PyObj)) : Prop :=
  List.Forall₂ (fun v v' => v'.1 = v.1 ∧ v.1.Matches v.2 v'.2) vals vals'

section

variable {vals vals' : List (Param × PyObj)}

theorem checks_congr (h : Matched vals vals') :
    (vals'.mapM fun v => v.1.check v.2) = vals.mapM fun v => v.1.check v.2 := by
  refine mapM_congr h ?_
  rintro ⟨p, x⟩ ⟨p', x'⟩ ⟨rfl, hmatch⟩
  exact hmatch.check

/-- Matching values are the same strings for `libssh2`. -/
theorem nativeStrings_congr (h : Matched vals vals') :
    nativeStrings vals' = nativeStrings vals := by
  have hbytes : (vals'.mapM fun v => v.1.toBytes v.2) = vals.mapM fun v => v.1.toBytes v.2 := by
    refine mapM_congr h ?_
    rintro ⟨p, x⟩ ⟨p', x'⟩ ⟨rfl, hmatch⟩
    exact hmatch.toBytes
  have hpointer (bs : List (Option PyBytes)) :
      ((vals'.zip bs).mapM fun v => v.1.1.pointer v.1.2 v.2) =
        (vals.zip bs).mapM fun v => v.1.1.pointer v.1.2 v.2 := by
    refine mapM_congr (forall₂_zip h bs) ?_
    rintro ⟨⟨p, x⟩, b⟩ ⟨⟨p', x'⟩, b'⟩ ⟨⟨rfl, hmatch⟩, rfl⟩
    exact hmatch.pointer _
  simp only [nativeStrings, checks_congr h, hbytes, hpointer]

theorem StringMethod.convert_congr (m : StringMethod) (n : NativeSide) (h : Matched vals vals') :
    m.convert n vals' = m.convert n vals := by
  rw [StringMethod.convert, StringMethod.convert, nativeStrings_congr h, checks_congr h]

end

/-- Two lists of arguments fill parameters alike: both calls raise the same, or the values match. -/
def FillsAlike (ps : List Param) (args args' : List (Option PyObj)) : Prop :=
  (∃ e, fillArgs ps args = .error e ∧ fillArgs ps args' = .error e) ∨
    ∃ vals vals', fillArgs ps args = .ok vals ∧ fillArgs ps args' = .ok vals' ∧ Matched vals vals'

theorem FillsAlike.refl (ps : List Param) (args : List (Option PyObj)) :
    FillsAlike ps args args := by
  cases hfill : fillArgs ps args with
  | error e => exact .inl ⟨e, hfill, hfill⟩
  | ok vals =>
    exact .inr ⟨vals, vals, hfill, hfill,
      List.forall₂_same.mpr fun v _ => ⟨rfl, v.1.matches_self v.2⟩⟩

theorem FillsAlike.cons {p : Param} {ps : List Param} {a a' : Option PyObj}
    {as as' : List (Option PyObj)} {x x' : PyObj} (ha : a.or p.default = some x)
    (ha' : a'.or p.default = some x') (hx : p.Matches x x') (h : FillsAlike ps as as') :
    FillsAlike (p :: ps) (a :: as) (a' :: as') := by
  rw [FillsAlike, fillArgs, fillArgs, ha, ha']
  obtain ⟨e, he, he'⟩ | ⟨vals, vals', hv, hv', hmatch⟩ := h
  · exact .inl ⟨e, by rw [he]; rfl, by rw [he']; rfl⟩
  · exact .inr ⟨(p, x) :: vals, (p, x') :: vals', by rw [hv]; rfl, by rw [hv']; rfl,
      .cons ⟨rfl, hx⟩ hmatch⟩

/-- Twin arguments fill the parameters alike, where no length is measured on the argument. -/
theorem fillArgs_twins {ps : List Param} {args args' : List (Option PyObj)}
    (h : Param.TwinArgs ps args args') (hps : ∀ p ∈ ps, p.measure ≠ .argumentLen) :
    FillsAlike ps args args' := by
  induction ps generalizing args args' with
  | nil =>
    obtain rfl : args' = args := by cases args <;> exact h
    exact .refl _ _
  | cons p ps ih =>
    cases args with
    | nil =>
      obtain rfl : args' = [] := h
      exact .refl _ _
    | cons a as =>
      cases args' with
      | nil => cases h
      | cons a' as' =>
        obtain ⟨hhead, htail⟩ := h
        have hrest := ih htail fun q hq => hps q (List.mem_cons_of_mem p hq)
        obtain rfl | ⟨htext, x, x', htwin, rfl, rfl⟩ := hhead
        · cases ha : a'.or p.default with
          | none => exact .inl ⟨typeError, by rw [fillArgs, ha], by rw [fillArgs, ha]⟩
          | some x => exact .cons ha ha (p.matches_self x) hrest
        · have hne := hps p List.mem_cons_self
          exact .cons rfl rfl (htwin.matches htext fun heq => absurd heq hne) hrest

/-! ## A method -/

namespace StringMethod

variable {m : StringMethod} {args args' : List (Option PyObj)} {n : NativeSide}

theorem knownHostKey_ne (typemask : Int) : knownHostKey typemask ≠ .argumentLen := by
  rw [knownHostKey]
  split <;> exact Measure.noConfusion

/-- Only `Channel.signal` measures its argument. -/
theorem measure_ne (hm : m ≠ .channelSignal) : ∀ p ∈ m.params, p.measure ≠ .argumentLen := by
  cases m with
  | channelSignal => exact absurd rfl hm
  | _ => simp [params, knownHostKey_ne]

/-- Only `Agent.userauth` looks at its argument again. -/
theorem result_congr (hm : m ≠ .agentUserauth) (xs xs' : List PyObj) :
    m.result n xs' = m.result n xs := by
  cases m with
  | agentUserauth => exact absurd rfl hm
  | _ => rfl

theorem run_of_fill {vals : List (Param × PyObj)} (h : fillArgs m.params args = .ok vals) :
    m.run args n = m.body n vals := by
  simp only [run, h]

theorem run_congr (h : FillsAlike m.params args args') (hm : m ≠ .agentUserauth) :
    m.run args' n = m.run args n := by
  obtain ⟨e, he, he'⟩ | ⟨vals, vals', hv, hv', hmatch⟩ := h
  · rw [run, run, he, he']
  · rw [run_of_fill hv, run_of_fill hv', body, body, m.convert_congr n hmatch,
      result_congr hm (vals.map Prod.snd) (vals'.map Prod.snd)]

/-- A method that takes one string, on an argument that is one. -/
theorem run_single {p : Param} {x : PyObj} {b : PyBytes} (hparams : m.params = [p])
    (halloc : m.allocation = .never) (hcheck : p.check x = .ok ())
    (hbytes : p.toBytes x = .ok (some b)) :
    m.run [some x] n = ⟨[.string m [some ⟨b.data, p.measure.length x b⟩]], m.result n [x]⟩ := by
  have hfill : fillArgs m.params [some x] = .ok [(p, x)] := by
    rw [hparams]
    rfl
  have hstrs : nativeStrings [(p, x)] = .ok [some ⟨b.data, p.measure.length x b⟩] := by
    simp only [nativeStrings, List.mapM_cons, List.mapM_nil, hcheck, hbytes]
    rfl
  have hconvert : m.convert n [(p, x)] = .ok [some ⟨b.data, p.measure.length x b⟩] := by
    rw [convert, halloc]
    exact hstrs
  rw [run_of_fill hfill]
  simp only [body, hconvert, List.map_cons, List.map_nil]

end StringMethod

/-- Arguments of a method with one parameter are the same, or a text and its encoding (with the same
surplus arguments). -/
theorem Param.TwinArgs.single {p : Param} {args args' : List (Option PyObj)}
    (h : Param.TwinArgs [p] args args') : args' = args ∨ ∃ x x' rest, Twin x x' ∧
      args = some x :: rest ∧ args' = some x' :: rest := by
  cases args with
  | nil => exact .inl h
  | cons a as =>
    cases args' with
    | nil => cases h
    | cons a' as' =>
      obtain ⟨hhead, htail⟩ := h
      obtain rfl : as' = as := by cases as <;> exact htail
      obtain rfl | ⟨-, x, x', htwin, rfl, rfl⟩ := hhead
      · exact .inl rfl
      · exact .inr ⟨x, x', as', htwin, rfl, rfl⟩

/-- Surplus arguments raise. -/
theorem fillArgs_surplus {p : Param} (x : PyObj) (a : Option PyObj) (as : List (Option PyObj)) :
    fillArgs [p] (some x :: a :: as) = .error typeError :=
  rfl

/-! ## The two methods that tell a text from its encoding -/

section

variable {n : NativeSide} {args args' : List (Option PyObj)} {x x' : PyObj} {s : PyStr}
    {b : PyBytes}

theorem toBytes_text (h : s.encode = .ok b) : toBytes (.text s) = .ok (some b) := by
  rw [toBytes, h]
  rfl

/-- A text argument or its encoding passes its check and is converted to the same bytes. -/
theorem converts_of_encode {p : Param} {x : PyObj} (hx : x = .text s ∨ x = .bytes b)
    (h : s.encode = .ok b) (ht : p.text = true) (hm : p.measure.check = .ok ())
    (hc : p.inCallback = false) : p.check x = .ok () ∧ p.toBytes x = .ok (some b) := by
  rw [Param.toBytes, hc]
  obtain rfl | rfl := hx
  · exact ⟨(if_pos ht).trans hm, toBytes_text h⟩
  · exact ⟨hm, rfl⟩

/-- `Channel.signal` measures the argument. -/
theorem run_channelSignal {x : PyObj} (hx : x = .text s ∨ x = .bytes b) (h : s.encode = .ok b) :
    StringMethod.channelSignal.run [some x] n =
      ⟨[.string .channelSignal [some ⟨b.data, toSize (toInt32 (pyLen x))⟩]],
        .ofCode (handleErrorCodes n.rc)⟩ := by
  have hconv := converts_of_encode (p := { measure := .argumentLen }) hx h rfl rfl rfl
  exact StringMethod.run_single (p := { measure := .argumentLen }) rfl rfl hconv.1 hconv.2

theorem run_channelSignal_iff (h : Twin x x') :
    StringMethod.channelSignal.run [some x'] n = StringMethod.channelSignal.run [some x] n ↔
      pyLen x % 2 ^ 32 = pyLen x' % 2 ^ 32 := by
  cases h with
  | same => exact iff_of_true rfl rfl
  | encoded h =>
    rw [run_channelSignal (.inl rfl) h, run_channelSignal (.inr rfl) h, ← toSize_toInt32_inj]
    constructor
    · intro hrun
      have hcalls := congrArg TextRun.calls hrun
      simp only [List.cons.injEq, TextCall.string.injEq, Option.some.injEq, NativeString.mk.injEq,
        and_true, true_and] at hcalls
      exact hcalls.symm
    · intro hlen
      rw [hlen]

/-- What `Agent.userauth` makes of the code, with an argument that was converted. -/
def userauthResult (x : PyObj) (rc : Int) : TextResult :=
  if rc ≠ 0 ∧ rc ≠ eagain then
    .raised { cls := .agentAuthenticationError,
              args := [.text "Error authenticating user %s with provided public key",
                usernameArg x] }
  else .code rc

theorem result_userauth {a : Agent} {x : PyObj} {rc : Int} (h : bytesArg x = .ok b) :
    TextResult.ofCode (a.userauth x rc).result = userauthResult x rc := by
  rw [Agent.userauth, h, Effect.lift_ok_bind, userauthResult]
  split
  · rfl
  · rfl

/-- `Agent.userauth` quotes the argument when it fails. -/
theorem run_agentUserauth {x : PyObj} (hx : x = .text s ∨ x = .bytes b) (h : s.encode = .ok b) :
    StringMethod.agentUserauth.run [some x] n =
      ⟨[.string .agentUserauth [some ⟨b.data, Measure.strlen32.length x b⟩]],
        userauthResult x n.rc⟩ := by
  have hconv := converts_of_encode (p := { measure := .strlen32 }) hx h rfl rfl rfl
  have harg : bytesArg x = .ok b := by
    obtain rfl | rfl := hx
    · rw [bytesArg_some PyObj.noConfusion, toBytes_text h]
    · rfl
  rw [← result_userauth harg]
  exact StringMethod.run_single (p := { measure := .strlen32 }) rfl rfl hconv.1 hconv.2

theorem run_agentUserauth_iff (h : Twin x x') :
    StringMethod.agentUserauth.run [some x'] n = StringMethod.agentUserauth.run [some x] n ↔
      n.rc = 0 ∨ n.rc = eagain ∨ x = x' := by
  cases h with
  | same => exact iff_of_true rfl (.inr (.inr rfl))
  | encoded h =>
    rw [run_agentUserauth (.inl rfl) h, run_agentUserauth (.inr rfl) h]
    constructor
    · intro hrun
      by_contra hne
      obtain ⟨h0, hE, -⟩ := by simpa only [not_or] using hne
      have hresult := congrArg TextRun.result hrun
      rw [userauthResult, userauthResult, if_pos ⟨h0, hE⟩, if_pos ⟨h0, hE⟩] at hresult
      simp [usernameArg] at hresult
    · rintro (h0 | hE | hx)
      · rw [userauthResult, userauthResult, if_neg fun h => h.1 h0, if_neg fun h => h.1 h0]
        rfl
      · rw [userauthResult, userauthResult, if_neg fun h => h.2 hE, if_neg fun h => h.2 hE]
        rfl
      · cases hx

end

/-! ## Every operation -/

section

variable {m : StringMethod} {args args' : List (Option PyObj)} {n : NativeSide}

/-- For a method with one parameter only calls with one argument count. -/
theorem run_iff_of_single {p : Param} {P : PyObj → PyObj → Prop} (hparams : m.params = [p])
    (h : Param.TwinArgs m.params args args')
    (hP : ∀ x x', Twin x x' → (m.run [some x'] n = m.run [some x] n ↔ P x x')) :
    m.run args' n = m.run args n ↔ ∀ x x', args = [some x] → args' = [some x'] → P x x' := by
  rw [hparams] at h
  obtain rfl | ⟨x, x', rest, htwin, rfl, rfl⟩ := h.single
  · refine iff_of_true rfl fun x x' hx hx' => ?_
    obtain rfl : x = x' := by simpa using hx.symm.trans hx'
    exact (hP x x (.same x)).mp rfl
  · cases rest with
    | nil =>
      rw [hP x x' htwin]
      constructor
      · intro hP' y y' hy hy'
        obtain rfl : x = y := by simpa using hy
        obtain rfl : x' = y' := by simpa using hy'
        exact hP'
      · exact fun hall => hall x x' rfl rfl
    | cons a as =>
      have hrun (y : PyObj) : m.run (some y :: a :: as) n = ⟨[], .raised typeError⟩ := by
        rw [StringMethod.run, hparams, fillArgs_surplus]
      refine iff_of_true ((hrun x').trans (hrun x).symm) fun y y' hy => ?_
      cases hy

theorem method_run_iff (h : Param.TwinArgs m.params args args') :
    m.run args' n = m.run args n ↔ ∀ x x', args = [some x] → args' = [some x'] →
      (m = .channelSignal → pyLen x % 2 ^ 32 = pyLen x' % 2 ^ 32) ∧
      (m = .agentUserauth → n.rc = 0 ∨ n.rc = eagain ∨ x = x') := by
  by_cases hs : m = .channelSignal
  · subst hs
    refine run_iff_of_single rfl h fun x x' htwin => ?_
    rw [run_channelSignal_iff htwin]
    exact ⟨fun hlen => ⟨fun _ => hlen, StringMethod.noConfusion⟩, fun hlen => hlen.1 rfl⟩
  · by_cases hu : m = .agentUserauth
    · subst hu
      refine run_iff_of_single rfl h fun x x' htwin => ?_
      rw [run_agentUserauth_iff htwin]
      exact ⟨fun hrc => ⟨StringMethod.noConfusion, fun _ => hrc⟩, fun hrc => hrc.2 rfl⟩
    · have hrun :=
        StringMethod.run_congr (n := n) (fillArgs_twins h (StringMethod.measure_ne hs)) hu
      exact iff_of_true hrun fun _ _ _ _ => ⟨fun h => absurd h hs, fun h => absurd h hu⟩

end

/-! The operations with more calls read a text through its bytes only. -/

section

variable {username username' password password' : PyObj} {cb cb' : UserCallback}

theorem forall₂_getElem? {α β : Type} {R : α → β → Prop} {l : List α} {l' : List β}
    (h : List.Forall₂ R l l') (i : Nat) :
    (l[i]? = none ∧ l'[i]? = none) ∨ ∃ a b, l[i]? = some a ∧ l'[i]? = some b ∧ R a b := by
  induction h generalizing i with
  | nil => exact .inl ⟨rfl, rfl⟩
  | cons hR _ ih =>
    cases i with
    | zero => exact .inr ⟨_, _, rfl, rfl, hR⟩
    | succ i =>
      rw [List.getElem?_cons_succ, List.getElem?_cons_succ]
      exact ih i

theorem fillResponses_twins {xs xs' : List PyObj} (h : List.Forall₂ Twin xs xs') (k i : Nat) :
    fillResponses xs' k i = fillResponses xs k i := by
  induction k generalizing i with
  | zero => rfl
  | succ k ih =>
    rw [fillResponses, fillResponses]
    obtain ⟨hx, hx'⟩ | ⟨x, x', hx, hx', htwin⟩ := forall₂_getElem? h i
    · rw [hx, hx']
    · simp only [hx, hx', htwin.responseBytes_eq, ih]

theorem takeResponses_twins {r r' : CallbackResult} (h : TwinResult r r') (n : Nat)
    (pending : Bool) :
    takeResponses n (r'.underException pending) = takeResponses n (r.underException pending) := by
  cases h with
  | same => rfl
  | list hxs => cases pending with
    | true => rfl
    | false => exact fillResponses_twins hxs _ _

theorem kbdCallback_twins (h : TwinCallback cb cb') (fate : PendingFate) (pending : Bool) (k : Nat)
    (req : InfoRequest) :
    kbdCallback fate (some cb') pending k req = kbdCallback fate (some cb) pending k req := by
  simp only [kbdCallback, takeResponses_twins (h _ _ _ _)]

theorem kbdRounds_twins (h : TwinCallback cb cb') (fate : PendingFate) (pending : Bool) (k : Nat)
    (reqs : List InfoRequest) :
    kbdRounds fate (some cb') pending k reqs = kbdRounds fate (some cb) pending k reqs := by
  induction reqs generalizing pending k with
  | nil => rfl
  | cons req reqs ih => simp only [kbdRounds, kbdCallback_twins h, ih]

theorem userauthKeyboardinteractiveCallback_twins (hu : Twin username username')
    (hcb : TwinCallback cb cb') (fate : PendingFate) (before : Option UserCallback)
    (reqs : List InfoRequest) (rc : Int) :
    userauthKeyboardinteractiveCallback fate username' cb' before reqs rc =
      userauthKeyboardinteractiveCallback fate username cb before reqs rc := by
  simp only [userauthKeyboardinteractiveCallback, hu.bytesArg_eq, kbdRounds_twins hcb]

theorem passwd_twins (h : Twin password password') :
    TwinCallback (passwd password) (passwd password') :=
  fun _ _ _ _ => .list (.cons h .nil)

theorem keyboardRun_twins (hu : Twin username username') (kbd : KbdRun) :
    keyboardRun username' kbd = keyboardRun username kbd := by
  rw [keyboardRun, keyboardRun, hu.bytesArg_eq]
  rfl

theorem channelWriteEx_twins {buf buf' : PyObj} (h : Twin buf buf') (streamId uninit : Int)
    (results : List Int) :
    channelWriteEx streamId buf' uninit results = channelWriteEx streamId buf uninit results := by
  cases h with
  | same => rfl
  | encoded h =>
    have hwrite (fn : NativeWrite) (x : PyObj) (hx : x ≠ .none) :
        channelWriteWith fn x uninit results = match toBytes x with
        | .error e => ⟨[], .raised e⟩
        | .ok none => ⟨[], .raised { cls := .typeError }⟩
        | .ok (some b) => writeLoop fn b.length results 0 b.length uninit := by
      cases x with
      | none => exact absurd rfl hx
      | _ => rfl
    rw [channelWriteEx, channelWriteEx, hwrite _ _ PyObj.noConfusion, hwrite _ _ PyObj.noConfusion,
      toBytes_text h]
    rfl

end

/-- **Text and its encoding do the same**, up to the length of a signal name and the form of the
user name in an exception of `Agent.userauth`. -/
theorem textRun_eq_iff (op op' : TextOp) (h : op.Twins op') : op.run = op'.run ↔ op.Alike op' := by
  cases h with
  | method h =>
    rw [eq_comm]
    exact method_run_iff h
  | userauthKeyboardinteractive hu hp =>
    refine iff_of_true ?_ trivial
    simp only [TextOp.run, hp.none_iff, userauthKeyboardinteractive, hu.none_iff,
      keyboardRun_twins hu, userauthKeyboardinteractiveCallback_twins hu (passwd_twins hp)]
  | userauthKeyboardinteractiveCallback hu hcb =>
    refine iff_of_true ?_ trivial
    rw [TextOp.run, TextOp.run, userauthKeyboardinteractiveCallback_twins hu hcb,
      keyboardRun_twins hu]
  | agentAuth hu =>
    refine iff_of_true ?_ trivial
    rw [TextOp.run, TextOp.run, sessionAgentAuth, sessionAgentAuth, hu.bytesArg_eq]
  | write hb =>
    refine iff_of_true ?_ trivial
    simp only [TextOp.run, channelWriteEx_twins hb, hb.bytesArg_eq]

/-- `'é'` -/
def eAcute : PyStr :=
  ⟨[⟨0xe9, by decide⟩]⟩

def eAcuteBytes : PyBytes :=
  ⟨[0xc3, 0xa9], by decide⟩

theorem encode_eAcute : eAcute.encode = .ok eAcuteBytes := by
  decide

/-- Every native call succeeds. -/
def succeeds : NativeSide where
  allocated := true
  receiver := .native
  agent := ⟨some 0, true⟩
  errno := 0
  rc := 0
  opened := ⟨true, none⟩
  boundPort := 0
  auth := none
  target := []

theorem textRun_eq_example :
    (TextOp.method .agentUserauth rfl [some (.text eAcute)] succeeds).run =
      (TextOp.method .agentUserauth rfl [some (.bytes eAcuteBytes)] succeeds).run := by
  refine (textRun_eq_iff _ _ (.method ?_)).mpr fun _ _ _ _ => ?_
  · exact ⟨.inr ⟨rfl, _, _, .encoded encode_eAcute, rfl, rfl⟩, rfl⟩
  · exact ⟨StringMethod.noConfusion, fun _ => .inl rfl⟩

/-- The signal `'é'` is sent as one byte, its encoding as two. -/
theorem signal_not_alike :
    (TextOp.method .channelSignal rfl [some (.text eAcute)] succeeds).Twins
        (.method .channelSignal rfl [some (.bytes eAcuteBytes)] succeeds) ∧
      (TextOp.method .channelSignal rfl [some (.text eAcute)] succeeds).run ≠
        (TextOp.method .channelSignal rfl [some (.bytes eAcuteBytes)] succeeds).run := by
  have htwin := Twin.encoded encode_eAcute
  refine ⟨.method ⟨.inr ⟨rfl, _, _, htwin, rfl, rfl⟩, rfl⟩, fun hrun => ?_⟩
  have hlen := (run_channelSignal_iff (n := succeeds) htwin).mp hrun.symm
  exact absurd hlen (by decide)

end Ssh2Python
