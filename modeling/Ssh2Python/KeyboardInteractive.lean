import Ssh2Python.Lib.CInt
import Ssh2Python.Utils

/-!
# Keyboard-interactive authentication

`kbd_callback`, which `libssh2` calls once for each `INFO_REQUEST` of the server, and the two
methods of `Session` that install a user callback for it. The build turns off `boundscheck` and
`wraparound`, so `py_responses[i]` reads the item array of the list without looking at its length:
an index past the end is `outOfBounds`, where the behaviour of the process is undefined. An
exception does not stop `libssh2`, which knows nothing of it: it stays pending in the rounds that
follow. Allocations succeed.
-/

namespace Ssh2Python

open Lib.CInt

/-- What the server asked: the native strings carry their lengths. -/
structure InfoRequest where
  name : List UInt8
  instruction : List UInt8
  prompts : List (List UInt8)
  deriving DecidableEq, Repr

def InfoRequest.numPrompts (r : InfoRequest) : Nat :=
  r.prompts.length

/-- What a call of the user callback gives. -/
inductive CallbackResult
  | list (xs : List PyObj)
  | none
  | other
  | raised (e : PyExc)
  deriving DecidableEq

/-- A user callback, by the number of the round: it may keep a state. -/
abbrev UserCallback := Nat → List UInt8 → List UInt8 → List PyStr → CallbackResult

/-- A slot of the native array. -/
structure KbdResponse where
  text : List UInt8
  length : Int
  deriving DecidableEq, Repr

/-- `libssh2` hands the array over filled with zeros. -/
def KbdResponse.zero : KbdResponse := ⟨[], 0⟩

inductive KbdStatus
  | completed
  | raised (e : PyExc)
  | outOfBounds
  deriving DecidableEq, Repr

/-- One run of `kbd_callback`: the prompts with which it called the user callback, if it did, the
indices at which it took an element of the list, the slots it filled, in order, and how it ended. -/
structure KbdRound where
  asked : Option (List PyStr) := none
  taken : List Nat := []
  filled : List KbdResponse := []
  status : KbdStatus
  deriving DecidableEq

def KbdRound.push (i : Nat) (s : KbdResponse) (r : KbdRound) : KbdRound :=
  { r with taken := i :: r.taken, filled := s :: r.filled }

/-- The array `libssh2` reads afterwards. -/
def KbdRound.slots (n : Nat) (r : KbdRound) : List KbdResponse :=
  r.filled ++ List.replicate (n - r.filled.length) .zero

def notSubscriptable : PyExc :=
  { cls := .typeError, args := [.text "'NoneType' object is not subscriptable"] }

def noLen : PyExc :=
  { cls := .typeError, args := [.text "object of type 'NoneType' has no len()"] }

/-- The bytes of one response: `to_bytes`, then `len`. -/
def responseBytes (x : PyObj) : Except PyExc PyBytes :=
  match toBytes x with
  | .error e => .error e
  | .ok none => .error noLen
  | .ok (some b) => .ok b

/-- The second loop of `kbd_callback`, from index `i` with `k` prompts to go. -/
def fillResponses (xs : List PyObj) : Nat → Nat → KbdRound
  | 0, _ => { status := .completed }
  | k + 1, i => match xs[i]? with
    | none => { taken := [i], status := .outOfBounds }
    | some x => match responseBytes x with
      | .error e => { taken := [i], status := .raised e }
      | .ok b => (fillResponses xs k (i + 1)).push i ⟨b.data, toUInt32 b.length⟩

/-- The first loop of `kbd_callback`. -/
def decodePrompts : List (List UInt8) → Except PyExc (List PyStr)
  | [] => .ok []
  | t :: ts => do
    let p ← toStrLen t t.length
    let ps ← decodePrompts ts
    return p :: ps

/-- What Python makes of an exception that is still pending. Its C interface leaves both open. -/
structure PendingFate where
  /-- Whether the user callback discards it in a round, by handling an exception of its own. -/
  discards : Nat → Bool
  /-- Whether the exception that `handle_error_codes` raises for a code takes its place. -/
  replaces : Int → Bool

def systemError : PyExc := { cls := .systemError }

/-- What a call gives that ends with an exception set: only an exception of its own is not turned
into a `SystemError`. -/
def CallbackResult.underException (pending : Bool) : CallbackResult → CallbackResult
  | .raised e => .raised e
  | res => if pending then .raised systemError else res

/-- `kbd_callback` after the call of the user callback. -/
def takeResponses (n : Nat) : CallbackResult → KbdRound
  | .raised e => { status := .raised e }
  | .other => { status := .raised { cls := .typeError } }
  | .none => if n = 0 then { status := .completed } else { status := .raised notSubscriptable }
  | .list xs => fillResponses xs n 0

/-- `kbd_callback`, as the `k`-th call of `libssh2`; `pending` says whether an exception of an
earlier round is still set. -/
def kbdCallback (fate : PendingFate) (callback : Option UserCallback) (pending : Bool) (k : Nat)
    (req : InfoRequest) : KbdRound :=
  match callback with
  | none => { status := .completed }
  | some cb =>
    -- `decode` is called with the exception set, and the first prompt fails
    if pending = true ∧ req.numPrompts ≠ 0 then { status := .raised systemError }
    else match decodePrompts req.prompts with
      | .error e => { status := .raised e }
      | .ok prompts =>
        let res := cb k req.name req.instruction prompts
        let r := takeResponses req.numPrompts (res.underException (pending && !fate.discards k))
        { r with asked := some prompts }

/-! ## An authentication run -/

def KbdRound.Raised (r : KbdRound) : Prop :=
  ∃ e, r.status = .raised e

def KbdRound.raises (r : KbdRound) : Bool :=
  match r.status with
  | .raised _ => true
  | _ => false

/-- Whether an exception is pending after a round: the user callback has discarded an older one when
it was called and the round did not raise. -/
def KbdRound.leavesPending (pending : Bool) (r : KbdRound) : Bool :=
  r.raises || (pending && r.asked.isNone)

/-- The rounds of one native call, from the `k`-th on. An exception does not stop `libssh2`;
undefined behaviour does. -/
def kbdRounds (fate : PendingFate) (callback : Option UserCallback) :
    Bool → Nat → List InfoRequest → List KbdRound
  | _, _, [] => []
  | pending, k, req :: reqs =>
    let r := kbdCallback fate callback pending k req
    if r.status = .outOfBounds then [r]
    else r :: kbdRounds fate callback (r.leavesPending pending) (k + 1) reqs

structure KbdRun where
  rounds : List KbdRound
  /-- What the method leaves in `_kbd_callback`. -/
  callback : Option UserCallback
  /-- Nothing can be said of it when a round ran out of bounds. -/
  result : Option (Except PyExc Int)

/-- What the caller of the method gets: a number that is returned with an exception set becomes a
`SystemError`, and so does the exception of `handle_error_codes`, unless it takes the place of the
one that is set. -/
def resultUnderException (fate : PendingFate) (pending : Bool) (rc : Int) : Except PyExc Int :=
  match handleErrorCodes rc with
  | .ok v => if pending then .error systemError else .ok v
  | .error e => if pending = true ∧ fate.replaces rc = false then .error systemError else .error e

/-- `Session.userauth_keyboardinteractive_callback`, when the server sends the requests `reqs` and
the native call returns `rc`. -/
def userauthKeyboardinteractiveCallback (fate : PendingFate) (username : PyObj)
    (callback : UserCallback) (before : Option UserCallback) (reqs : List InfoRequest) (rc : Int) :
    KbdRun :=
  match bytesArg username with
  | .error e => ⟨[], before, some (.error e)⟩
  | .ok _ =>
    let rounds := kbdRounds fate (some callback) false 0 reqs
    ⟨rounds, none,
      if ∃ r ∈ rounds, r.status = .outOfBounds then none
      else some (resultUnderException fate (rounds.foldl KbdRound.leavesPending false) rc)⟩

/-- The callback of `userauth_keyboardinteractive`. -/
def passwd (password : PyObj) : UserCallback :=
  fun _ _ _ _ => .list [password]

/-- `Session.userauth_keyboardinteractive`: the callback it installs answers every request with a
list that holds the password. -/
def userauthKeyboardinteractive (fate : PendingFate) (username password : PyObj)
    (before : Option UserCallback) (reqs : List InfoRequest) (rc : Int) : KbdRun :=
  if username = .none ∨ password = .none then ⟨[], before, some (.error { cls := .typeError })⟩
  else userauthKeyboardinteractiveCallback fate username (passwd password) before reqs rc

/-! ## What a round has to do -/

/-- A round is right: no element outside the list is taken, a completed round has filled every slot
with the response of its index, and a list that is too short raises. -/
def RoundOk (n : Nat) (responses : CallbackResult) (r : KbdRound) : Prop :=
  match responses with
  | .list xs =>
    (∀ i ∈ r.taken, i < xs.length) ∧
    (r.status = .completed → ∀ i < n, ∃ x b, xs[i]? = some x ∧ responseBytes x = .ok b ∧
      (r.slots n)[i]? = some ⟨b.data, b.length⟩) ∧
    (xs.length < n → r.Raised)
  | _ => r.taken = [] ∧ (r.status = .completed → n = 0)

/-- The same for a call of `kbd_callback`: one that did not come to the user callback has no
list. -/
def CallOk (cb : UserCallback) (k : Nat) (req : InfoRequest) (r : KbdRound) : Prop :=
  match r.asked with
  | none => r.taken = [] ∧ r.Raised
  | some prompts => RoundOk req.numPrompts (cb k req.name req.instruction prompts) r

/-- Every round of a run is right. -/
def RunOk (cb : UserCallback) (reqs : List InfoRequest) (run : KbdRun) : Prop :=
  ∀ (k : Nat) r req, run.rounds[k]? = some r → reqs[k]? = some req → CallOk cb k req r

/-- What makes a round right: one of the responses asked for cannot be converted, or there are
enough of them and the length of each fits an `unsigned int`. -/
def ResponsesFit (n : Nat) : CallbackResult → Prop
  | .list xs =>
    (∃ k < n, ∃ x e, xs[k]? = some x ∧ responseBytes x = .error e) ∨
    n ≤ xs.length ∧ ∀ k < n, ∀ x b, xs[k]? = some x → responseBytes x = .ok b → b.length < 2 ^ 32
  | _ => True

def CallFits (cb : UserCallback) (k : Nat) (req : InfoRequest) : Prop :=
  ∀ prompts, decodePrompts req.prompts = .ok prompts →
    ResponsesFit req.numPrompts (cb k req.name req.instruction prompts)

/-! ## When an exception is pending -/

/-- Whether what the user callback gave cannot be made into `n` responses. -/
def CallbackResult.unusable (n : Nat) : CallbackResult → Bool
  | .raised _ | .other => true
  | .none => n != 0
  | .list xs => (xs.take n).any fun x => !(responseBytes x).isOk

/-- Whether an exception is pending after a request, when one was before it or not. It arises from
prompts that cannot be decoded and from an answer that cannot be used; an older one stays unless the
user callback is called and discards it. -/
def pendingBehind (fate : PendingFate) (cb : UserCallback) (pending : Bool) (k : Nat)
    (req : InfoRequest) : Bool :=
  match decodePrompts req.prompts with
  | .error _ => true
  | .ok prompts =>
    (pending && (req.numPrompts != 0 || !fate.discards k)) ||
      (cb k req.name req.instruction prompts).unusable req.numPrompts

/-- The same for several requests, from the `k`-th round on. -/
def pendingAfter (fate : PendingFate) (cb : UserCallback) : Bool → Nat → List InfoRequest → Bool
  | pending, _, [] => pending
  | pending, k, req :: reqs =>
    pendingAfter fate cb (pendingBehind fate cb pending k req) (k + 1) reqs

/-! ## What an exception must not do -/

/-- What a run in which a round raised has to be like: `libssh2` reads no response that the round
did not fill in, the caller gets an exception that tells what went wrong, and the callback is
gone. -/
structure ExceptionContained (reqs : List InfoRequest) (run : KbdRun) : Prop where
  sent : ∀ (k : Nat) r req, run.rounds[k]? = some r → reqs[k]? = some req → r.Raised →
    r.slots req.numPrompts = r.filled
  raises : ∃ e, run.result = some (.error e) ∧ e.cls ≠ .systemError
  cleared : run.callback = none

/-- The user callback answers a request: the prompts can be decoded, and it returns a list with a
response to each of them that can be converted. -/
def CallAnswers (cb : UserCallback) (k : Nat) (req : InfoRequest) : Prop :=
  ∃ prompts xs, decodePrompts req.prompts = .ok prompts ∧
    cb k req.name req.instruction prompts = .list xs ∧
    ∀ i < req.numPrompts, ∃ x b, xs[i]? = some x ∧ responseBytes x = .ok b

end Ssh2Python
