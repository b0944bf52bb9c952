import Mathlib.Data.List.Basic
import Mathlib.Data.Int.Basic

/-!
# Error codes and exceptions

`libssh2` reports failure by negative `int` codes; the bindings turn them into the exception
classes of `exceptions.pyx` through one function, `handle_error_codes`. The facts every later file
uses are `handleErrorCodes_ok_iff` (which codes come back as plain numbers) and
`handleErrorCodes_raises` (every other code raises, and what it raises is an `SSH2Error`).
-/

namespace Ssh2Python

/-! ## Exception classes -/

/-- The classes of `exceptions.pyx`, and the builtin ones the bindings themselves raise; `base` puts
the builtin ones directly under `Exception`. `other` stands for any class that user code defines. -/
inductive ExcClass
  | exception | memoryError | typeError | overflowError | unicodeEncodeError | unicodeDecodeError
  | systemError | attributeError | other
  | ssh2Error | agentError | authenticationError | agentConnectionError
  | agentAuthenticationError | agentListIdentitiesError | agentGetIdentityError
  | agentProtocolError | sessionError | sessionStartupError | sessionHandshakeError
  | sessionHostKeyError | bannerRecvError | bannerSendError | keyExchangeError | timeout
  | hostkeyInitError | hostkeySignError | decryptError | socketDisconnectError | protocolError
  | passwordExpiredError | fileError | methodNoneError | publicKeyError | publicKeyInitError
  | publickeyUnverifiedError | channelError | channelOutOfOrderError | channelFailure
  | channelRequestDenied | channelUnknownError | channelWindowExceeded | channelPacketExceeded
  | channelClosedError | channelEOFSentError | scpProtocolError | zlibError | socketTimeout
  | requestDeniedError | methodNotSupported | invalidRequestError | invalidPollTypeError
  | publicKeyProtocolError | bufferTooSmallError | badUseError | compressError
  | outOfBoundaryError | socketRecvError | socketSendError | encryptError | badSocketError
  | sftpError | sftpProtocolError | sftpHandleError | knownHostError | knownHostAddError
  | knownHostCheckError | knownHostCheckFailure | knownHostCheckNotFoundError
  | knownHostCheckMisMatchError | knownHostDeleteError | knownHostReadLineError
  | knownHostReadFileError | knownHostWriteLineError | knownHostWriteFileError
  | knownHostGetError | invalidMACError | kexFailureError | allocError | channelWindowFullError
  | keyfileAuthFailedError | randGenError | missingUserAuthBannerError | algoUnsupportedError
  | macFailureError | hashInitError | hashCalcError | unknownError
  deriving DecidableEq, Repr

def ExcClass.base : ExcClass → Option ExcClass
  | .exception => none
  | .memoryError | .typeError | .overflowError | .unicodeEncodeError | .unicodeDecodeError
  | .systemError | .attributeError | .other | .ssh2Error => some .exception
  | .agentConnectionError | .agentListIdentitiesError | .agentGetIdentityError => some .agentError
  | .agentAuthenticationError | .passwordExpiredError | .publickeyUnverifiedError =>
    some .authenticationError
  | .sessionStartupError | .sessionHandshakeError | .sessionHostKeyError | .bannerRecvError
  | .bannerSendError | .keyExchangeError | .timeout | .hostkeyInitError | .hostkeySignError
  | .decryptError | .scpProtocolError | .zlibError | .socketTimeout | .requestDeniedError
  | .methodNotSupported | .compressError | .encryptError => some .sessionError
  | .publicKeyInitError => some .publicKeyError
  | .channelOutOfOrderError | .channelFailure | .channelRequestDenied | .channelUnknownError
  | .channelWindowExceeded | .channelPacketExceeded | .channelClosedError
  | .channelEOFSentError => some .channelError
  | .sftpProtocolError | .sftpHandleError => some .sftpError
  | .knownHostCheckFailure | .knownHostCheckNotFoundError | .knownHostCheckMisMatchError =>
    some .knownHostCheckError
  | .knownHostAddError | .knownHostCheckError | .knownHostDeleteError | .knownHostReadLineError
  | .knownHostReadFileError | .knownHostWriteLineError | .knownHostWriteFileError
  | .knownHostGetError => some .knownHostError
  | _ => some .ssh2Error

def ExcClass.isSubclassWithin : Nat → ExcClass → ExcClass → Bool
  | 0, c, d => c == d
  | n + 1, c, d => c == d || match c.base with
    | none => false
    | some b => isSubclassWithin n b d

/-- `issubclass`: no class of the hierarchy has more than four bases above it. -/
def ExcClass.isSubclass (c d : ExcClass) : Bool :=
  isSubclassWithin 4 c d

inductive ExcArg
  | text (s : String)
  | int (n : Int)
  | bytes (b : List UInt8)
  deriving DecidableEq, Repr

structure PyExc where
  cls : ExcClass
  args : List ExcArg := []
  deriving DecidableEq, Repr

def PyExc.IsSSH2Error (e : PyExc) : Prop :=
  e.cls.isSubclass .ssh2Error = true

instance (e : PyExc) : Decidable e.IsSSH2Error :=
  inferInstanceAs (Decidable (_ = true))

/-! ## Error codes -/

/-- The error codes of `libssh2.h`, under the names `error_codes.pxd` gives them, in the order of
their values: they are numbered downwards from zero. -/
inductive ErrorCode
  | none | socketNone | bannerRecv | bannerSend | invalidMac | kexFailure | alloc | socketSend
  | keyExchangeFailure | timeout | hostkeyInit | hostkeySign | decrypt | socketDisconnect | proto
  | passwordExpired | file | methodNone | authenticationFailed | publickeyUnverified
  | channelOutoforder | channelFailure | channelRequestDenied | channelUnknown
  | channelWindowExceeded | channelPacketExceeded | channelClosed | channelEofSent | scpProtocol
  | zlib | socketTimeout | sftpProtocol | requestDenied | methodNotSupported | inval
  | invalidPollType | publickeyProtocol | eagain | bufferTooSmall | badUse | compress
  | outOfBoundary | agentProtocol | socketRecv | encrypt | badSocket | knownHosts
  | channelWindowFull | keyfileAuthFailed | randgen | missingUserauthBanner | algoUnsupported
  | macFailure | hashInit | hashCalc
  deriving DecidableEq, Repr

def ErrorCode.value (c : ErrorCode) : Int :=
  -c.ctorIdx

abbrev eagain : Int :=
  -37

/-- The arms of `handle_error_codes` that raise, in the order of the source. -/
def switchArms : List (ErrorCode × ExcClass) :=
  [(.socketNone, .ssh2Error), (.bannerRecv, .bannerRecvError), (.bannerSend, .bannerSendError),
   (.invalidMac, .invalidMACError), (.kexFailure, .kexFailureError), (.alloc, .allocError),
   (.socketSend, .socketSendError), (.keyExchangeFailure, .keyExchangeError),
   (.timeout, .timeout), (.hostkeyInit, .hostkeyInitError), (.hostkeySign, .hostkeySignError),
   (.decrypt, .decryptError), (.socketDisconnect, .socketDisconnectError),
   (.proto, .protocolError), (.passwordExpired, .passwordExpiredError), (.file, .fileError),
   (.methodNone, .methodNoneError), (.authenticationFailed, .authenticationError),
   (.publickeyUnverified, .publickeyUnverifiedError),
   (.channelOutoforder, .channelOutOfOrderError), (.channelFailure, .channelFailure),
   (.channelRequestDenied, .channelRequestDenied), (.channelUnknown, .channelUnknownError),
   (.channelWindowExceeded, .channelWindowExceeded),
   (.channelPacketExceeded, .channelPacketExceeded), (.channelClosed, .channelClosedError),
   (.channelEofSent, .channelEOFSentError), (.scpProtocol, .scpProtocolError),
   (.zlib, .zlibError), (.socketTimeout, .socketTimeout), (.sftpProtocol, .sftpProtocolError),
   (.requestDenied, .requestDeniedError), (.methodNotSupported, .methodNotSupported),
   (.inval, .invalidRequestError), (.invalidPollType, .invalidPollTypeError),
   (.publickeyProtocol, .publicKeyProtocolError), (.bufferTooSmall, .bufferTooSmallError),
   (.badUse, .badUseError), (.compress, .compressError), (.outOfBoundary, .outOfBoundaryError),
   (.agentProtocol, .agentProtocolError), (.socketRecv, .socketRecvError),
   (.encrypt, .encryptError), (.badSocket, .badSocketError), (.knownHosts, .knownHostError),
   (.channelWindowFull, .channelWindowFullError),
   (.keyfileAuthFailed, .keyfileAuthFailedError), (.randgen, .randGenError),
   (.missingUserauthBanner, .missingUserAuthBannerError),
   (.algoUnsupported, .algoUnsupportedError), (.macFailure, .macFailureError),
   (.hashInit, .hashInitError), (.hashCalc, .hashCalcError)]

/-- `handle_error_codes(int errcode)`. -/
def handleErrorCodes (errcode : Int) : Except PyExc Int :=
  if errcode = 0 then .ok 0
  else if errcode = ErrorCode.eagain.value then .ok errcode
  else match switchArms.find? (fun arm => arm.1.value == errcode) with
    | some arm => .error { cls := arm.2 }
    | none =>
      -- the default of the switch
      if errcode < 0 then
        .error { cls := .unknownError, args := [.text "Error code %s not known", .int errcode] }
      else .ok errcode

/-! ## What the table guarantees -/

@[simp] theorem value_eagain : ErrorCode.eagain.value = eagain := rfl

theorem eagain_neg : eagain < 0 := by decide

example : ErrorCode.hashCalc.value = -54 := rfl

/-- The three things one result can be. -/
theorem result_cases (r : Int) : (r < 0 ∧ r ≠ eagain) ∨ r = eagain ∨ 0 ≤ r := by
  by_cases hE : r = eagain
  · exact .inr (.inl hE)
  · by_cases hneg : r < 0
    · exact .inl ⟨hneg, hE⟩
    · exact .inr (.inr (by omega))

/-- No arm repeats a code (a C `switch` could not), and none is for `0` or `EAGAIN`. -/
theorem switchArms_codes :
    (switchArms.map (fun arm => arm.1.value)).Nodup ∧
      ∀ arm ∈ switchArms, arm.1.value < 0 ∧ arm.1.value ≠ eagain := by
  decide

theorem switchArms_classes :
    ∀ arm ∈ switchArms, PyExc.IsSSH2Error { cls := arm.2 } := by
  decide

/-- Every code of `libssh2.h` other than success and `EAGAIN` has an arm of its own, so the default
of the switch is for codes the header does not name. -/
theorem switchArms_complete (c : ErrorCode) (h0 : c ≠ .none) (hE : c ≠ .eagain) :
    c ∈ switchArms.map Prod.fst := by
  revert h0 hE
  cases c <;> decide

/-- A negative code other than `EAGAIN` raises an `SSH2Error`. -/
theorem handleErrorCodes_raises {errcode : Int} (hneg : errcode < 0) (hE : errcode ≠ eagain) :
    ∃ e, handleErrorCodes errcode = .error e ∧ e.IsSSH2Error := by
  unfold handleErrorCodes
  rw [if_neg (by omega), if_neg (by simpa using hE)]
  cases hf : switchArms.find? (fun arm => arm.1.value == errcode) with
  | none =>
    have hunk : ExcClass.isSubclass .unknownError .ssh2Error = true := by decide
    simp only [if_pos hneg]
    exact ⟨_, rfl, hunk⟩
  | some arm => exact ⟨_, rfl, switchArms_classes arm (List.mem_of_find?_eq_some hf)⟩

theorem handleErrorCodes_returns {errcode : Int} (h : 0 ≤ errcode ∨ errcode = eagain) :
    handleErrorCodes errcode = .ok errcode := by
  unfold handleErrorCodes
  split
  · next h0 => rw [h0]
  · split
    · rfl
    · next h0 hE =>
      have hpos : ¬errcode < 0 := by
        rcases h with h | h
        · omega
        · exact absurd h (by simpa using hE)
      have hnone : switchArms.find? (fun arm => arm.1.value == errcode) = none := by
        rw [List.find?_eq_none]
        intro arm harm heq
        have := (switchArms_codes.2 arm harm).1
        rw [beq_iff_eq] at heq
        omega
      simp only [hnone, if_neg hpos]

/-- **What `handle_error_codes` returns**: a code comes back as a number exactly when it is not
negative or is `EAGAIN`, and then unchanged. -/
theorem handleErrorCodes_ok_iff {errcode v : Int} :
    handleErrorCodes errcode = .ok v ↔ v = errcode ∧ (0 ≤ errcode ∨ errcode = eagain) := by
  constructor
  · intro h
    by_cases hc : 0 ≤ errcode ∨ errcode = eagain
    · rw [handleErrorCodes_returns hc] at h
      exact ⟨(Except.ok.inj h).symm, hc⟩
    · have hneg : errcode < 0 := by omega
      obtain ⟨e, he, -⟩ := handleErrorCodes_raises hneg (by omega)
      rw [he] at h
      cases h
  · rintro ⟨rfl, hc⟩
    exact handleErrorCodes_returns hc

end Ssh2Python
