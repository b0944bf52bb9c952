import Ssh2Python.Agent
import Ssh2Python.Lib.Cursor
import Ssh2Python.Nodes

/-!
# Listing entries and identities

`KnownHost.get` and `Agent.get_identities` walk a native list: each call of the iterator is passed
the node that the last one found. The lists are those of `NodeWorld`, and the steps of that machine
take what these loops return as a whole. The loops end when the iterator says so, so they take fuel.
-/

namespace Ssh2Python

open Lib.Cursor

/-! ## The native iterators -/

/-- A native list while it is walked. A call of its iterator may fail, with a negative code. -/
structure NativeList where
  nodes : List Nat
  /-- What the call fails with, the calls being numbered from zero. -/
  fault : Nat → Option Int
  neg : ∀ i, ∀ rc ∈ fault i, rc < 0

namespace NativeList

variable (l : NativeList)

/-- `libssh2_knownhost_get` and `libssh2_agent_get_identity`: the code, and what is in `store` after
the call. -/
def get (call : Nat) (store prev : Option Nat) : Int × Option Nat :=
  match l.fault call with
  | some rc => (rc, store)
  | none => match next l.nodes prev with
    | some n => (0, some n)
    | none => (1, store)

/-- The loop: the nodes that are found, and the code that ends it. -/
def collect : Nat → Nat → Option Nat → Option Nat → Option (List (Option Nat) × Int)
  | 0, _, _, _ => none
  | fuel + 1, call, store, prev =>
    if (l.get call store prev).1 = 0 then
      (collect fuel (call + 1) (l.get call store prev).2 (l.get call store prev).2).map fun r =>
        ((l.get call store prev).2 :: r.1, r.2)
    else some ([], (l.get call store prev).1)

/-- What the calls of the loop return, at most `fuel` of them. -/
def codes : Nat → Nat → Option Nat → Option Nat → List Int
  | 0, _, _, _ => []
  | fuel + 1, call, store, prev =>
    (l.get call store prev).1 ::
      codes fuel (call + 1) (l.get call store prev).2 (l.get call store prev).2

end NativeList

/-! ## The methods -/

def knownHostGetError (rc : Int) : PyExc where
  cls := .knownHostGetError
  args := [.text "Error retrieving known hosts - error code %s", .int rc]

/-- `KnownHost.get`; `prev` is the node of the entry, and the result the nodes of the new
entries. -/
def knownHostGet (l : NativeList) (prev : Option Nat) (fuel : Nat) :
    Option (Except PyExc (List (Option Nat))) :=
  (l.collect fuel 0 none prev).map fun r =>
    if r.2 < 0 then .error (knownHostGetError r.2) else .ok r.1

def agentListIdentitiesError : PyExc where
  cls := .agentListIdentitiesError
  args := [.text "Failure requesting identities from agent.Agent must be connected first"]

/-- `Agent.get_identities`; `listRc` is the code of `libssh2_agent_list_identities`. -/
def agentGetIdentities (l : NativeList) (listRc : Int) (fuel : Nat) :
    Option (Except PyExc (List (Option Nat))) :=
  if listRc ≠ 0 then some (.error agentListIdentitiesError)
  else (l.collect fuel 0 none none).map fun r => .ok r.1

/-! ## What they should do -/

/-- A listing of a collection. -/
inductive Listing
  | get (prev : Option Nat)
  | getIdentities (listRc : Int)
  deriving DecidableEq, Repr

namespace Listing

def run (l : NativeList) : Listing → Nat → Option (Except PyExc (List (Option Nat)))
  | .get prev => knownHostGet l prev
  | .getIdentities listRc => agentGetIdentities l listRc

/-- The entry that the listing starts from is in the list. -/
def Live (l : NativeList) : Listing → Prop
  | .get (some n) => n ∈ l.nodes
  | _ => True

/-- The nodes that should be listed are all of the list, or those behind an entry. -/
def Covers (l : NativeList) (rest : List Nat) : Listing → Prop
  | .get (some n) => ∃ pre, l.nodes = pre ++ n :: rest
  | _ => rest = l.nodes

/-- The code in front of the first call of the iterator. -/
def startCode : Listing → Int
  | .get _ => 0
  | .getIdentities listRc => listRc

/-- The listing comes to an end, with all the nodes if no call fails on the way, and with an
exception if one does. -/
structure Lists (l : NativeList) (rest : List Nat) (s : Listing) : Prop where
  covers : s.Covers l rest
  complete : s.startCode = 0 → (∀ i ≤ rest.length, l.fault i = none) →
    ∀ fuel > rest.length, s.run l fuel = some (.ok (rest.map some))
  raises : s.startCode ≠ 0 ∨ (∃ i ≤ rest.length, l.fault i ≠ none) →
    ∀ fuel > rest.length, ∃ e, s.run l fuel = some (.error e) ∧ e.IsSSH2Error

/-- Every entry that the listing should give is listed once and in order, or it raises. -/
def Faithful (l : NativeList) (s : Listing) : Prop :=
  ∃ rest, s.Lists l rest

/-- `get_identities` takes any code but zero for the end of the list. -/
def FaultFree (l : NativeList) : Listing → Prop
  | .get _ => True
  | .getIdentities listRc => listRc ≠ 0 ∨ ∀ i ≤ l.nodes.length, l.fault i = none

end Listing

end Ssh2Python
