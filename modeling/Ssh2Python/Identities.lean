import Ssh2Python.Agent

/-!
# The identities of an agent

`agent_auth` once more, with the pointers it passes: `identity` and `prev` point into the list of
the agent, where an identity is its place, and each fetch asks for the one after `prev`. The loop is
`while 1`, so the function takes fuel.
-/

namespace Ssh2Python

/-! ## The native agent -/

/-- What a call of `libssh2_agent_get_identity` does: it goes by the list, or says that there is
nothing more, or fails with a negative code. -/
inductive Fetch
  | works
  | ends
  | fails (rc : Int) (neg : rc < 0)

/-- A connected agent, as one call of `agent_auth` meets it. -/
structure NativeAgent where
  /-- What `libssh2_agent_list_identities` returns. -/
  listRc : Int
  /-- The length of the list. -/
  count : Nat
  /-- The fetch of each round. -/
  fetch : Nat → Fetch
  /-- What `libssh2_agent_userauth` returns for each identity. -/
  userauth : Option Nat → Int

/-- The place after `prev`. -/
def placeAfter : Option Nat → Nat
  | none => 0
  | some i => i + 1

/-- `libssh2_agent_get_identity`: its code, and the value of `identity` after it. -/
def NativeAgent.getIdentity (n : NativeAgent) (round : Nat) (identity prev : Option Nat) :
    Int × Option Nat :=
  match n.fetch round with
  | .works => if placeAfter prev < n.count then (0, some (placeAfter prev)) else (1, identity)
  | .ends => (1, identity)
  | .fails rc _ => (rc, identity)

/-! ## The calls -/

inductive AuthCall
  | plain (c : AgentCall)
  /-- `libssh2_agent_userauth` with an identity. -/
  | userauth (username : PyBytes) (agent : AgentPtr) (identity : Option Nat)
  deriving DecidableEq

def AuthCall.identity : AuthCall → Option (Option Nat)
  | .userauth _ _ i => some i
  | .plain _ => none

/-- The call without its identity. -/
def AuthCall.erase : AuthCall → AgentCall
  | .userauth username agent _ => .use (.userauth username) agent
  | .plain c => c

/-- The identities that were tried. -/
def Effect.tried {α : Type} (e : Effect AuthCall α) : List (Option Nat) :=
  e.calls.filterMap AuthCall.identity

/-! ## `agent_auth` -/

namespace NativeAgent

/-- The loop of `agent_auth`; `none` when the fuel runs out. -/
def agentAuthLoop (n : NativeAgent) (username : PyBytes) (agent : AgentPtr) :
    Nat → Nat → Option Nat → Option Nat → Effect AuthCall (Option Int)
  | 0, _, _, _ => return none
  | fuel + 1, round, identity, prev => do
    let (code, identity) := n.getIdentity round identity prev
    let rc ← (authIdentity username agent code).mapCalls .plain
    if rc = 1 then
      .raise (userError .agentAuthenticationError "No identities match for user %s" username)
    else
      .emit (.userauth username agent identity)
      if n.userauth identity = 0 then
        (clearAgent agent).mapCalls .plain
        return some 0
      else agentAuthLoop n username agent fuel (round + 1) identity identity

/-- `agent_auth` -/
def agentAuth (n : NativeAgent) (username : PyBytes) (agent : AgentPtr) (fuel : Nat) :
    Effect AuthCall (Option Int) := do
  .emit (.plain (.use .listIdentities agent))
  if n.listRc ≠ 0 then
    (clearAgent agent).mapCalls .plain
    .raise { cls := .agentListIdentitiesError,
             args := [.text "Failure requesting identities from agent"] }
  else n.agentAuthLoop username agent fuel 0 none none

/-- The codes of each round. -/
def rounds (n : NativeAgent) : Nat → Nat → Option Nat → Option Nat → List (Int × Int)
  | 0, _, _, _ => []
  | fuel + 1, round, identity, prev =>
    let (code, identity) := n.getIdentity round identity prev
    (code, n.userauth identity) :: n.rounds fuel (round + 1) identity identity

/-! ## What it should do -/

/-- Round `i` tries the identity at place `i`, which is not accepted. -/
def Rejects (n : NativeAgent) (i : Nat) : Prop :=
  n.fetch i = .works ∧ i < n.count ∧ n.userauth (some i) ≠ 0

/-- A fetch fails before an identity is accepted. -/
def FetchFails (n : NativeAgent) : Prop :=
  ∃ j rc neg, n.fetch j = .fails rc neg ∧ ∀ i < j, n.Rejects i

/-- The end of the list comes before an identity is accepted. -/
def Exhausted (n : NativeAgent) : Prop :=
  ∃ j, (n.fetch j = .ends ∨ n.fetch j = .works ∧ j = n.count) ∧ ∀ i < j, n.Rejects i

end NativeAgent

/-- The exception is of the class. -/
def Effect.Raises {κ α : Type} (e : Effect κ α) (cls : ExcClass) : Prop :=
  ∃ exc, e.result = .error exc ∧ exc.cls = cls

/-- The identities are tried in the order of the list up to the first that is accepted; that one, or
the lack of it, decides how the function ends; and the agent is disconnected and freed at the
end. -/
structure Authenticates (n : NativeAgent) (agent : AgentPtr) (e : Effect AuthCall (Option Int)) :
    Prop where
  terminates : e.result ≠ .ok none
  inOrder : ∃ k ≤ n.count, e.tried = (List.range k).map some
  stops : ∀ i ∈ e.tried, n.userauth i = 0 → e.tried.getLast? = some i
  normal : e.result = .ok (some 0) ↔ ∃ i ∈ e.tried, n.userauth i = 0
  listing : e.Raises .agentListIdentitiesError ↔ n.listRc ≠ 0
  fetching : e.Raises .agentGetIdentityError ↔ n.listRc = 0 ∧ n.FetchFails
  exhausted : e.Raises .agentAuthenticationError ↔ n.listRc = 0 ∧ n.Exhausted
  released : ∃ uses, e.calls = uses ++ [.plain (.use .disconnect agent), .plain (.free agent)] ∧
    ∀ c ∈ uses, ∀ a, c ≠ .plain (.use .disconnect a) ∧ c ≠ .plain (.free a)

end Ssh2Python
