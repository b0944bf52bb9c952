import Ssh2Python.Effect
import Ssh2Python.Lib.Ledger
import Ssh2Python.Utils

/-!
# Authentication agents

The functions of `agent.pyx`, the methods of `Agent`, and the two methods of `Session` that allocate
native agents. Every native call is a parameter, in the order in which the function makes them. The
machine at the end is a session and its `Agent` objects, from the creation of the session until they
are all gone.
-/

namespace Ssh2Python

open Lib.CString Lib.Ledger

/-! ## Native calls -/

/-- A native agent pointer: NULL, or the number of the agent. -/
abbrev AgentPtr := Option Nat

inductive AgentFn
  | disconnect
  | listIdentities
  | getIdentity
  | userauth (username : PyBytes)
  | getIdentityPath
  | setIdentityPath (path : PyBytes)
  deriving DecidableEq

inductive AgentCall
  /-- `libssh2_agent_init` and what it returned. -/
  | init (agent : AgentPtr)
  | connect (agent : AgentPtr) (rc : Int)
  | use (fn : AgentFn) (agent : AgentPtr)
  | free (agent : AgentPtr)
  deriving DecidableEq

/-- An exception of `agent.pyx` that carries the user name in `char *` form. -/
def userError (cls : ExcClass) (msg : String) (username : PyBytes) : PyExc :=
  { cls := cls, args := [.text msg, .bytes (username.data.take (strlen username.data))] }

/-! ## The functions of `agent.pyx` -/

def clearAgent (agent : AgentPtr) : Effect AgentCall Unit := do
  .emit (.use .disconnect agent)
  .emit (.free agent)

/-- `agent_init` -/
def agentInit (native : AgentPtr) : Effect AgentCall AgentPtr := do
  .emit (.init native)
  if native = none then .raise { cls := .agentError, args := [.text "Error initialising agent"] }
  else return native

/-- `init_connect_agent`, which does not look at what `libssh2_agent_init` returned. A NULL result
without an exception is a `SystemError`. -/
def initConnectAgent (native : AgentPtr) (connectRc : Int) : Effect AgentCall AgentPtr := do
  .emit (.init native)
  .emit (.connect native connectRc)
  if connectRc ≠ 0 then
    .emit (.free native)
    .raise { cls := .agentConnectionError, args := [.text "Unable to connect to agent"] }
  else if native = none then .raise { cls := .systemError }
  else return native

def authIdentity (username : PyBytes) (agent : AgentPtr) (rc : Int) : Effect AgentCall Int := do
  .emit (.use .getIdentity agent)
  if rc = 1 then
    clearAgent agent
    return rc
  else if rc < 0 then
    clearAgent agent
    .raise (userError .agentGetIdentityError "Failure getting identity for user %s from agent"
      username)
  else return rc

/-- The loop of `agent_auth`: what `libssh2_agent_get_identity` and `libssh2_agent_userauth` return
in each round. `none` when these run out before the loop ends. -/
def agentAuthLoop (username : PyBytes) (agent : AgentPtr) :
    List (Int × Int) → Effect AgentCall (Option Int)
  | [] => return none
  | (getRc, authRc) :: rounds => do
    let rc ← authIdentity username agent getRc
    if rc = 1 then
      .raise (userError .agentAuthenticationError "No identities match for user %s" username)
    else
      .emit (.use (.userauth username) agent)
      if authRc = 0 then
        clearAgent agent
        return some 0
      else agentAuthLoop username agent rounds

/-- `agent_auth` -/
def agentAuth (username : PyBytes) (agent : AgentPtr) (listRc : Int) (rounds : List (Int × Int)) :
    Effect AgentCall (Option Int) := do
  .emit (.use .listIdentities agent)
  if listRc ≠ 0 then
    clearAgent agent
    .raise { cls := .agentListIdentitiesError,
             args := [.text "Failure requesting identities from agent"] }
  else agentAuthLoop username agent rounds

/-! ## The class `Agent` -/

structure Agent where
  agent : AgentPtr
  /-- `self._session` is not `None`. -/
  session : Bool
  deriving DecidableEq

/-- `Agent(session)`. When this raises, the half-made object goes with `_agent` NULL. -/
def Agent.new (native : AgentPtr) : Effect AgentCall Agent := do
  let agent ← agentInit native
  return ⟨agent, true⟩

/-- `PyAgent`: the constructor allocates an agent of its own, which is overwritten. -/
def pyAgent (agent native : AgentPtr) : Effect AgentCall Agent := do
  let a ← Agent.new native
  return { a with agent := agent }

/-- `Agent.__dealloc__`; `nativeSession` says that the session's own pointer is not NULL. -/
def Agent.dealloc (a : Agent) (nativeSession : Bool) : Effect AgentCall Unit :=
  if a.session ∧ nativeSession ∧ a.agent ≠ none then clearAgent a.agent else return ()

/-- The loop of `Agent.get_identities`: the indices of the keys it collects. -/
def getIdentitiesLoop (agent : AgentPtr) :
    Nat → List Int → Effect AgentCall (Option (List Nat))
  | _, [] => return none
  | n, rc :: rcs => do
    .emit (.use .getIdentity agent)
    if rc = 0 then getIdentitiesLoop agent (n + 1) rcs else return some (List.range n)

def Agent.getIdentities (a : Agent) (listRc : Int) (rcs : List Int) :
    Effect AgentCall (Option (List Nat)) := do
  .emit (.use .listIdentities a.agent)
  if listRc ≠ 0 then
    .raise { cls := .agentListIdentitiesError,
             args :=
               [.text "Failure requesting identities from agent.Agent must be connected first"] }
  else getIdentitiesLoop a.agent 0 rcs

/-- The user name as an argument of an exception, after its conversion has succeeded. -/
def usernameArg : PyObj → ExcArg
  | .text s => .text (String.ofList (s.points.map fun p => Char.ofNat p))
  | .bytes b => .bytes b.data
  | _ => .text ""

def Agent.userauth (a : Agent) (username : PyObj) (rc : Int) : Effect AgentCall Int := do
  let b ← .lift (bytesArg username)
  .emit (.use (.userauth b) a.agent)
  if rc ≠ 0 ∧ rc ≠ eagain then
    .raise { cls := .agentAuthenticationError,
             args := [.text "Error authenticating user %s with provided public key",
               usernameArg username] }
  else return rc

def Agent.disconnect (a : Agent) (rc : Int) : Effect AgentCall Int := do
  .emit (.use .disconnect a.agent)
  return rc

def Agent.connect (a : Agent) (rc : Int) : Effect AgentCall Int := do
  .emit (.connect a.agent rc)
  if rc ≠ 0 then
    .raise { cls := .agentConnectionError, args := [.text "Unable to connect to agent"] }
  else return rc

def Agent.getIdentityPath (a : Agent) (path : Option (List UInt8)) :
    Effect AgentCall (Option (List UInt8)) := do
  .emit (.use .getIdentityPath a.agent)
  return path

def Agent.setIdentityPath (a : Agent) (path : PyObj) : Effect AgentCall Unit := do
  let b ← .lift (bytesArg path)
  .emit (.use (.setIdentityPath b) a.agent)

/-! ## The methods of `Session` -/

/-- `Session.agent_init`: the second native agent is allocated by `PyAgent`. -/
def sessionAgentInit (first second : AgentPtr) : Effect AgentCall Agent := do
  let agent ← agentInit first
  pyAgent agent second

/-- `Session.agent_auth` -/
def sessionAgentAuth (username : PyObj) (native : AgentPtr) (connectRc listRc : Int)
    (rounds : List (Int × Int)) : Effect AgentCall (Option Int) := do
  let b ← .lift (bytesArg username)
  let agent ← initConnectAgent native connectRc
  agentAuth b agent listRc rounds

/-! ## A session, its agents and their runs -/

/-- A method call: its native calls and the way it ended. -/
structure AgentEvent where
  calls : List AgentCall
  ending : Ending
  deriving DecidableEq

def Effect.agentEvent {α : Type} (e : Effect AgentCall α) : AgentEvent :=
  ⟨e.calls, e.ending⟩

/-- The same for a method with a loop, which may still be running. -/
def Effect.loopEvent {α : Type} (e : Effect AgentCall (Option α)) : AgentEvent :=
  ⟨e.calls, match e.result with
    | .ok none => .suspended
    | .ok (some _) => .normal
    | .error exc => .raised exc⟩

inductive AgentMethod
  | listIdentities
  | getIdentities (listRc : Int) (rcs : List Int)
  | userauth (username : PyObj) (rc : Int)
  | disconnect (rc : Int)
  | connect (rc : Int)
  | getIdentityPath (path : Option (List UInt8))
  | setIdentityPath (path : PyObj)

/-- A call of the method; `list_identities` does nothing. -/
def AgentMethod.event (a : Agent) : AgentMethod → AgentEvent
  | .listIdentities => ⟨[], .normal⟩
  | .getIdentities listRc rcs => (a.getIdentities listRc rcs).loopEvent
  | .userauth username rc => (a.userauth username rc).agentEvent
  | .disconnect rc => (a.disconnect rc).agentEvent
  | .connect rc => (a.connect rc).agentEvent
  | .getIdentityPath path => (a.getIdentityPath path).agentEvent
  | .setIdentityPath path => (a.setIdentityPath path).agentEvent

structure AgentWorld where
  /-- The `Session` object exists. -/
  session : Bool
  agents : List Agent
  /-- The number of the next native agent. -/
  next : Nat
  deriving DecidableEq

def AgentWorld.start : AgentWorld :=
  ⟨true, [], 0⟩

def AgentWorld.Gone (w : AgentWorld) : Prop :=
  w.session = false ∧ w.agents = []

/-- What a program or the interpreter can do, with what the native calls give. Of the natives that
allocate an agent it says whether they succeed. -/
inductive AgentOp
  | agentInit (first second : Bool)
  | new (native : Bool)
  | agentAuth (username : PyObj) (native : Bool) (connectRc listRc : Int)
      (rounds : List (Int × Int))
  | method (i : Nat) (m : AgentMethod)
  /-- The cycle collector sets `_session` to `None`. -/
  | clear (i : Nat)
  | dealloc (i : Nat)
  | deallocSession

/-- The state after a call that may have made an object. -/
def AgentWorld.add (w : AgentWorld) (allocated : Nat) (e : Effect AgentCall Agent) : AgentWorld :=
  { w with
    agents := match e.result with
      | .ok a => w.agents ++ [a]
      | .error _ => w.agents
    next := w.next + allocated }

/-- A step of the session and its agents; there is none out of a call that is still running. -/
def agentStep : Lib.Run.Step (Option AgentWorld) AgentOp AgentEvent
  | none, _ => none
  | some w, .agentInit first second =>
    let e := sessionAgentInit (if first then some w.next else none)
      (if second then some (w.next + 1) else none)
    if w.session then some (some (w.add 2 e), [e.agentEvent]) else none
  | some w, .new native =>
    let e := Agent.new (if native then some w.next else none)
    if w.session then some (some (w.add 1 e), [e.agentEvent]) else none
  | some w, .agentAuth username native connectRc listRc rounds =>
    let e := (sessionAgentAuth username (if native then some w.next else none) connectRc listRc
      rounds).loopEvent
    if w.session then
      some (if e.ending = .suspended then none else some { w with next := w.next + 1 }, [e])
    else none
  | some w, .method i m => w.agents[i]?.map fun a =>
    let e := m.event a
    (if e.ending = .suspended then none else some w, [e])
  | some w, .clear i => w.agents[i]?.map fun a =>
    (some { w with agents := w.agents.set i { a with session := false } }, [])
  | some w, .dealloc i => w.agents[i]?.map fun a =>
    (some { w with agents := w.agents.eraseIdx i }, [(a.dealloc w.session).agentEvent])
  | some w, .deallocSession =>
    -- an agent that still has its link keeps the session alive
    if w.session ∧ ∀ a ∈ w.agents, a.session = false then
      some (some { w with session := false }, [])
    else none

/-! ## What the runs should do -/

def AgentCall.event : AgentCall → List (Event AgentPtr)
  | .init none => []
  | .init (some k) => [.acquire (some k)]
  | .connect agent _ => [.call agent]
  | .use _ agent => [.call agent]
  | .free agent => [.release agent]

def AgentEvent.log (e : AgentEvent) : List (Event AgentPtr) :=
  e.calls.flatMap AgentCall.event

/-- An agent could not be allocated, or not be connected. -/
def AgentEvent.InitFailed (e : AgentEvent) : Prop :=
  .init none ∈ e.calls ∨ ∃ agent rc, .connect agent rc ∈ e.calls ∧ rc ≠ 0

/-- No agent function is called with NULL or a freed agent, a failed initialisation raises, and once
the objects are gone every agent has been freed exactly once. -/
structure AgentsManaged (es : List AgentEvent) (s : Option AgentWorld) : Prop where
  used : ∀ before e after, es.flatMap AgentEvent.log = before ++ e :: after →
    ∀ agent, e = .call agent ∨ e = .release agent →
      agent ≠ none ∧ .acquire agent ∈ before ∧ .release agent ∉ before
  raises : ∀ e ∈ es, e.InitFailed → ∃ exc, e.ending = .raised exc
  freed : ∀ w, s = some w → w.Gone → ∀ agent, .acquire agent ∈ es.flatMap AgentEvent.log →
    (es.flatMap AgentEvent.log).count (.release agent) = 1

/-- `Session.agent_init` fails at its first allocation, the agent of `Session.agent_auth` is
allocated (or its argument rejected before), and the collector clears no link. -/
def AgentOp.Managed (_ : Option AgentWorld) : AgentOp → Prop
  | .agentInit first _ => first = false
  | .agentAuth username native _ _ _ => native = true ∨ ∃ exc, bytesArg username = .error exc
  | .clear _ => False
  | _ => True

end Ssh2Python
