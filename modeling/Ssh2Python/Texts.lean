import Ssh2Python.Arguments

/-!
# Text and bytes

The methods of `Session`, `Channel`, `SFTP` and `Agent` that take text or bytes, run with what their
native calls give. Most of them convert their strings, make one call and read what it gave; the
others are in files of their own and are run here. A twin of an operation is the operation with some
of its texts replaced by the bytes of their encoding.
-/

namespace Ssh2Python

open Lib.CInt

/-! ## Calls and results -/

inductive TextCall
  | string (m : StringMethod) (args : List (Option NativeString))
  /-- `libssh2_userauth_keyboard_interactive`, with the rounds of its callback. -/
  | keyboard (username : NativeString) (rounds : List KbdRound)
  | agent (c : AgentCall)
  /-- A native write and the bytes from its pointer on. -/
  | write (c : WriteCall) (pointed : List UInt8)
  deriving DecidableEq

inductive TextResult
  | code (v : Int)
  | none
  /-- An object that the call has filled. -/
  | object
  | opened (r : OpenResult)
  | methods (xs : List PyStr)
  | path (s : PyStr)
  | written (s : WriteStatus)
  /-- The native side has not given enough results yet. -/
  | running
  /-- What follows undefined behaviour. -/
  | undefined
  | raised (e : PyExc)
  deriving DecidableEq

def TextResult.ofCode : Except PyExc Int → TextResult
  | .ok v => .code v
  | .error e => .raised e

structure TextRun where
  calls : List TextCall
  result : TextResult
  deriving DecidableEq

/-! ## Methods with one native call -/

/-- What a method reads besides its arguments. -/
structure NativeSide where
  /-- The buffer or struct that the method allocates is there. -/
  allocated : Bool
  /-- The object, if it is one of `SFTP`. -/
  receiver : Receiver
  /-- The object, if it is one of `Agent`. -/
  agent : Agent
  /-- The error number of the session before the call. -/
  errno : Int
  rc : Int
  opened : NativeOpen
  boundPort : Int
  /-- The memory that `libssh2_userauth_list` returns. -/
  auth : Option (List UInt8)
  /-- The buffer that `libssh2_sftp_realpath` fills. -/
  target : List UInt8

/-- When a method allocates the struct or buffer that its native call fills. -/
inductive Allocation
  | never
  /-- After the declarations are checked, before the strings are converted. -/
  | first
  | last
  deriving DecidableEq, Repr

/-- `str.split(',')` -/
def PyStr.splitComma (s : PyStr) : List PyStr :=
  (s.points.splitOn ⟨44, by decide⟩).map PyStr.mk

namespace StringMethod

/-- A method of `Session`, `Channel`, `SFTP` or `Agent` that makes one native call, which calls
nothing back. -/
def single : StringMethod → Bool
  | userauthKeyboardinteractive | userauthKeyboardinteractiveCallback | agentAuth => false
  | knownHostAddc _ | knownHostCheckp _ | knownHostReadline | knownHostReadfile
  | knownHostWritefile => false
  | publicKeySystemAdd | publicKeySystemRemove => false
  | _ => true

def allocation : StringMethod → Allocation
  | scpRecv2 | sftpStatvfs | sftpRealpath => .first
  | sftpStat | sftpLstat => .last
  | _ => .never

/-- The strings of the call, if nothing raises before it. -/
def convert (m : StringMethod) (n : NativeSide) (vals : List (Param × PyObj)) :
    Except PyExc (List (Option NativeString)) :=
  match m.allocation with
  | .never => nativeStrings vals
  | .first =>
    if n.allocated then nativeStrings vals
    else do
      let _ ← vals.mapM fun v => v.1.check v.2
      .error memoryError
  | .last => do
    let strs ← nativeStrings vals
    if n.allocated then .ok strs else .error memoryError

/-- `handle_error_codes(rc) if rc != 0 else` the object. -/
def codeOrObject (rc : Int) : TextResult :=
  if rc ≠ 0 then .ofCode (handleErrorCodes rc) else .object

/-- What a method makes of its native call; the converted arguments are `xs`. -/
def result (n : NativeSide) (xs : List PyObj) : StringMethod → TextResult
  | userauthList => match n.auth with
    | none => .none
    | some mem => match toStr mem with
      | .ok s => .methods s.splitComma
      | .error e => .raised e
  | directTcpipEx => .opened (Ssh2Python.directTcpipEx n.errno n.opened)
  | directTcpip => .opened (Ssh2Python.directTcpip n.errno n.opened)
  | directStreamlocalEx => .opened (Ssh2Python.directStreamlocalEx n.errno n.opened)
  | forwardListenEx => .opened (Ssh2Python.forwardListenEx n.errno n.opened n.boundPort)
  | setLastError => .code n.rc
  | scpRecv2 => .opened (Ssh2Python.scpRecv2 n.errno n.opened)
  | scpSend64 => .opened (Ssh2Python.scpSend64 n.errno n.opened)
  | sftpOpenEx _ => .opened (Ssh2Python.sftpOpenEx n.errno n.opened n.receiver)
  | sftpOpen => .opened (Ssh2Python.sftpOpen n.errno n.opened n.receiver)
  | sftpOpendir => .opened (Ssh2Python.sftpOpendir n.errno n.opened n.receiver)
  | sftpStatvfs => codeOrObject n.rc
  | sftpStat => codeOrObject n.rc
  | sftpLstat => codeOrObject n.rc
  | sftpRealpath =>
    if n.rc < 0 then .ofCode (handleErrorCodes n.rc)
    else match toStrLen n.target n.rc.toNat with
      | .ok s => .path s
      | .error e => .raised e
  | agentUserauth => .ofCode (n.agent.userauth (xs.headD .none) n.rc).result
  | agentSetIdentityPath => .none
  | _ => .ofCode (handleErrorCodes n.rc)

/-- The body of a method with one native call. -/
def body (m : StringMethod) (n : NativeSide) (vals : List (Param × PyObj)) : TextRun :=
  match m.convert n vals with
  | .error e => ⟨[], .raised e⟩
  | .ok strs => ⟨[.string m strs], m.result n (vals.map Prod.snd)⟩

/-- A call of a method with one native call. -/
def run (m : StringMethod) (args : List (Option PyObj)) (n : NativeSide) : TextRun :=
  match fillArgs m.params args with
  | .error e => ⟨[], .raised e⟩
  | .ok vals => m.body n vals

end StringMethod

/-! ## Operations -/

/-- An operation that takes text or bytes, with what its native calls give. -/
inductive TextOp
  | method (m : StringMethod) (single : m.single = true) (args : List (Option PyObj))
      (n : NativeSide)
  | userauthKeyboardinteractive (fate : PendingFate) (username password : PyObj)
      (reqs : List InfoRequest) (rc : Int)
  | userauthKeyboardinteractiveCallback (fate : PendingFate) (username : PyObj)
      (callback : UserCallback) (reqs : List InfoRequest) (rc : Int)
  | agentAuth (username : PyObj) (native : AgentPtr) (connectRc listRc : Int)
      (rounds : List (Int × Int))
  /-- `Channel.write_ex`, and the others for a stream of their own. -/
  | write (streamId : Int) (buf : PyObj) (uninit : Int) (results : List Int)

/-- The two keyboard-interactive methods, where `kbd` is how the call goes. -/
def keyboardRun (username : PyObj) (kbd : KbdRun) : TextRun :=
  match bytesArg username with
  | .error e => ⟨[], .raised e⟩
  | .ok b =>
    ⟨[.keyboard ⟨b.data, Measure.strlen32.length username b⟩ kbd.rounds], match kbd.result with
      | some r => .ofCode r
      | none => .undefined⟩

def TextOp.run : TextOp → TextRun
  | .method m _ args n => m.run args n
  | .userauthKeyboardinteractive fate username password reqs rc =>
    if password = .none then ⟨[], .raised typeError⟩
    else keyboardRun username
      (Ssh2Python.userauthKeyboardinteractive fate username password none reqs rc)
  | .userauthKeyboardinteractiveCallback fate username callback reqs rc =>
    keyboardRun username
      (Ssh2Python.userauthKeyboardinteractiveCallback fate username callback none reqs rc)
  | .agentAuth username native connectRc listRc rounds =>
    let e := sessionAgentAuth username native connectRc listRc rounds
    ⟨e.calls.map .agent, match e.result with
      | .ok none => .running
      | .ok (some _) => .none
      | .error exc => .raised exc⟩
  | .write streamId buf uninit results =>
    let w := channelWriteEx streamId buf uninit results
    let pointed (c : WriteCall) := match bytesArg buf with
      | .ok b => b.data.drop c.offset
      | .error _ => []
    ⟨w.calls.map fun c => .write c (pointed c), .written w.status⟩

/-! ## Twins -/

/-- The same, or the encoding of a text. -/
inductive Twin : PyObj → PyObj → Prop
  | same (x : PyObj) : Twin x x
  | encoded {s : PyStr} {b : PyBytes} (h : s.encode = .ok b) : Twin (.text s) (.bytes b)

/-- An argument that its parameter takes as text or bytes may be another one. -/
def Param.TwinArgs : List Param → List (Option PyObj) → List (Option PyObj) → Prop
  | p :: ps, a :: as, a' :: as' =>
    (a' = a ∨ p.text = true ∧ ∃ x x', Twin x x' ∧ a = some x ∧ a' = some x') ∧ TwinArgs ps as as'
  | _, as, as' => as' = as

/-- The responses of user code may be text or bytes. -/
inductive TwinResult : CallbackResult → CallbackResult → Prop
  | same (r : CallbackResult) : TwinResult r r
  | list {xs xs' : List PyObj} (h : List.Forall₂ Twin xs xs') : TwinResult (.list xs) (.list xs')

def TwinCallback (cb cb' : UserCallback) : Prop :=
  ∀ k name instruction prompts,
    TwinResult (cb k name instruction prompts) (cb' k name instruction prompts)

/-- The same operation with some texts encoded, and the same native results. -/
inductive TextOp.Twins : TextOp → TextOp → Prop
  | method {m : StringMethod} {single : m.single = true} {args args' : List (Option PyObj)}
      {n : NativeSide} (h : Param.TwinArgs m.params args args') :
      Twins (.method m single args n) (.method m single args' n)
  | userauthKeyboardinteractive {fate : PendingFate} {username username' password password' : PyObj}
      {reqs : List InfoRequest} {rc : Int} (hu : Twin username username')
      (hp : Twin password password') :
      Twins (.userauthKeyboardinteractive fate username password reqs rc)
        (.userauthKeyboardinteractive fate username' password' reqs rc)
  | userauthKeyboardinteractiveCallback {fate : PendingFate} {username username' : PyObj}
      {cb cb' : UserCallback} {reqs : List InfoRequest} {rc : Int} (hu : Twin username username')
      (hcb : TwinCallback cb cb') :
      Twins (.userauthKeyboardinteractiveCallback fate username cb reqs rc)
        (.userauthKeyboardinteractiveCallback fate username' cb' reqs rc)
  | agentAuth {username username' : PyObj} {native : AgentPtr} {connectRc listRc : Int}
      {rounds : List (Int × Int)} (hu : Twin username username') :
      Twins (.agentAuth username native connectRc listRc rounds)
        (.agentAuth username' native connectRc listRc rounds)
  | write {streamId : Int} {buf buf' : PyObj} {uninit : Int} {results : List Int}
      (hb : Twin buf buf') :
      Twins (.write streamId buf uninit results) (.write streamId buf' uninit results)

/-- The signal name has as many characters as bytes, up to what an `int` drops; and no exception of
`Agent.userauth` quotes the user name, or both are given the same. -/
def TextOp.Alike : TextOp → TextOp → Prop
  | .method m _ args n, .method _ _ args' _ =>
    ∀ x x', args = [some x] → args' = [some x'] →
      (m = .channelSignal → pyLen x % 2 ^ 32 = pyLen x' % 2 ^ 32) ∧
      (m = .agentUserauth → n.rc = 0 ∨ n.rc = eagain ∨ x = x')
  | _, _ => True

end Ssh2Python
