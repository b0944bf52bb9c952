import Ssh2Python.Errors
import Ssh2Python.Lib.Ledger

/-!
# Entries of known hosts and identities of agents

A `KnownHost` and an `Agent` own native lists. A `KnownHostEntry` or a `PublicKey` points at a node
of such a list and at nothing else: it keeps neither the node nor the owner of the list alive, and
several objects may point at one node. The machine is all owners and all objects, with the native
lists behind them; the code of `libssh2` that walks and changes these lists is part of it. Objects
that the program lets go of are objects that it does not use any more, as they have no destructor.
-/

namespace Ssh2Python

open Lib.Ledger

/-! ## Owners and objects -/

inductive OwnerClass
  /-- `KnownHost`, whose objects are `KnownHostEntry`s. -/
  | knownHost
  /-- `Agent`, whose objects are `PublicKey`s. -/
  | agent
  deriving DecidableEq, Repr

inductive OwnerStatus
  | present
  /-- Its destructor found no session and left the native list as it was. -/
  | leaked
  | freed
  deriving DecidableEq, Repr

structure NodeOwner where
  cls : OwnerClass
  /-- `_session` is not `None`, and its own pointer is not NULL. -/
  link : Bool := true
  status : OwnerStatus := .present
  /-- The native list. -/
  nodes : List Nat := []
  /-- How often `get_identities` was called. -/
  listing : Nat := 0

/-- The object itself is the pointer to its node. The other fields are its history: the owner of the
list that it was taken from, and the number of listings up to then. -/
structure NodeObject where
  cls : OwnerClass
  node : Nat
  owner : Nat
  listing : Nat

structure NodeWorld where
  owners : Nat → Option NodeOwner
  nextOwner : Nat
  objs : List NodeObject
  /-- The number of the next node. -/
  next : Nat
  /-- The nodes for which `delete` was called, through any object. -/
  deleted : List Nat

namespace NodeWorld

def start : NodeWorld :=
  ⟨fun _ => none, 0, [], 0, []⟩

variable (w : NodeWorld)

def setOwner (k : Nat) (o : NodeOwner) : NodeWorld :=
  { w with owners := Function.update w.owners k (some o) }

/-- The node is in a native list. -/
def contains (n : Nat) : Bool :=
  (List.range w.nextOwner).any fun k => (w.owners k).any fun o => n ∈ o.nodes

/-- The nodes behind `n` in its list. -/
def following (n : Nat) : List Nat :=
  (List.range w.nextOwner).flatMap fun k => match w.owners k with
    | some o => (o.nodes.dropWhile (· ≠ n)).drop 1
    | none => []

/-- The node is taken out of its list. -/
def unlink (n : Nat) : NodeWorld :=
  { w with owners := fun k => (w.owners k).map fun o => { o with nodes := o.nodes.erase n } }

/-- The numbers of the next nodes. -/
def newNodes (count : Nat) : List Nat :=
  List.range' w.next count

/-- New nodes at the end of the list of `o`, which is the owner `k`. -/
def extend (k : Nat) (o : NodeOwner) (count : Nat) : NodeWorld :=
  { w.setOwner k { o with nodes := o.nodes ++ w.newNodes count } with next := w.next + count }

/-- `PyKnownHostEntry` or `PyPublicKey` for each of the nodes. -/
def wrap (cls : OwnerClass) (k listing : Nat) (ns : List Nat) : NodeWorld :=
  { w with objs := w.objs ++ ns.map fun n => ⟨cls, n, k, listing⟩ }

/-- A method call on an owner that is there. -/
def on (k : Nat) (cls : OwnerClass) (f : NodeOwner → Option NodeWorld × List (Event Nat)) :
    Option (Option NodeWorld × List (Event Nat)) :=
  match w.owners k with
  | some o => if o.cls = cls ∧ o.status = .present then some (f o) else none
  | none => none

/-- A node is passed to `libssh2`, or one of its fields is read, before `w'` and its events follow.
What follows on the use of a node that is in no list is not defined. -/
def pass (n : Nat) (w' : NodeWorld) (es : List (Event Nat)) : Option NodeWorld × List (Event Nat) :=
  if w.contains n then (some w', .call n :: es) else (none, [.call n])

/-- An argument of the class. -/
def object (i : Nat) (cls : OwnerClass) : Option NodeObject :=
  w.objs[i]?.filter (·.cls = cls)

end NodeWorld

/-! ## Operations -/

inductive NodeOp
  /-- `Session.knownhost_init`, `Session.agent_init` or the constructor of `Agent`. -/
  | init (cls : OwnerClass)
  | addc (k : Nat) (rc : Int)
  /-- A line may hold several hosts. -/
  | readline (k added : Nat)
  | readfile (k added : Nat)
  /-- `matched` is the place of the node that matches. -/
  | checkp (k : Nat) (matched : Option Nat)
  | get (k : Nat) (prev : Option Nat)
  | delete (k i : Nat)
  /-- A buffer that is too small makes it pass the same node again. -/
  | writeline (k i : Nat)
  /-- `libssh2_agent_list_identities` frees the list, whatever it returns, and makes another. -/
  | getIdentities (k : Nat) (rc : Int) (count : Nat)
  /-- `args` is the conversion of the user name. -/
  | userauth (k i : Nat) (args : Except PyExc Unit)
  /-- A property of the object is read. -/
  | property (i : Nat)
  /-- The collector sets the session of the owner to `None`. -/
  | clear (k : Nat)
  /-- `KnownHost.__dealloc__` or `Agent.__dealloc__`. -/
  | destroy (k : Nat)

/-- A step; there is none after the use of a node that is in no list. -/
def nodeStep : Lib.Run.Step (Option NodeWorld) NodeOp (Event Nat)
  | none, _ => none
  | some w, .init cls =>
    some (some { w.setOwner w.nextOwner { cls := cls } with nextOwner := w.nextOwner + 1 }, [])
  | some w, .addc k rc => w.on k .knownHost fun o =>
    if rc = 0 then
      (some ((w.extend k o 1).wrap .knownHost k o.listing (w.newNodes 1)),
        (w.newNodes 1).map .acquire)
    else (some w, [])
  | some w, .readline k added => w.on k .knownHost fun o =>
    (some (w.extend k o added), (w.newNodes added).map .acquire)
  | some w, .readfile k added => w.on k .knownHost fun o =>
    (some (w.extend k o added), (w.newNodes added).map .acquire)
  | some w, .checkp k matched => w.on k .knownHost fun o =>
    (some (w.wrap .knownHost k o.listing (matched.bind (o.nodes[·]?)).toList), [])
  | some w, .get k none => w.on k .knownHost fun o =>
    (some (w.wrap .knownHost k o.listing o.nodes), o.nodes.map .call)
  | some w, .get k (some i) => (w.object i .knownHost).bind fun x => w.on k .knownHost fun _ =>
    w.pass x.node (w.wrap .knownHost x.owner x.listing (w.following x.node))
      ((w.following x.node).map .call)
  | some w, .delete k i => (w.object i .knownHost).bind fun x => w.on k .knownHost fun _ =>
    w.pass x.node { w.unlink x.node with deleted := x.node :: w.deleted } [.release x.node]
  | some w, .writeline k i => (w.object i .knownHost).bind fun x => w.on k .knownHost fun _ =>
    w.pass x.node w []
  | some w, .getIdentities k rc count => w.on k .agent fun o =>
    let w' := w.extend k { o with nodes := [], listing := o.listing + 1 } count
    let listed := o.nodes.map Event.release ++ (w.newNodes count).map .acquire
    if rc = 0 then
      (some (w'.wrap .agent k (o.listing + 1) (w.newNodes count)),
        listed ++ (w.newNodes count).map .call)
    else (some w', listed)
  | some w, .userauth k i args => (w.object i .agent).bind fun x => w.on k .agent fun _ =>
    match args with
    | .error _ => (some w, [])
    | .ok _ => w.pass x.node w []
  | some w, .property i => w.objs[i]?.map fun x => w.pass x.node w []
  | some w, .clear k => (w.owners k).map fun o => (some (w.setOwner k { o with link := false }), [])
  | some w, .destroy k => (w.owners k).bind fun o =>
    if o.status = .present then
      if o.link then
        some (some (w.setOwner k { o with nodes := [], status := .freed }), o.nodes.map .release)
      else some (some (w.setOwner k { o with status := .leaked }), [])
    else none

/-! ## Objects that are up to date -/

/-- The object is up to date: its owner has not been freed, `delete` was not called for its node,
and the identities of its agent were not listed again. -/
def NodeWorld.UpToDate (w : NodeWorld) (x : NodeObject) (o : NodeOwner) : Prop :=
  o.status ≠ .freed ∧ x.node ∉ w.deleted ∧ x.listing = o.listing

def NodeWorld.Current (w : NodeWorld) (i : Nat) : Prop :=
  ∀ x ∈ w.objs[i]?, ∀ o ∈ w.owners x.owner, w.UpToDate x o

/-- The object that the operation uses, if it gets to that. -/
def NodeOp.uses : NodeOp → Option Nat
  | .get _ prev => prev
  | .delete _ i => some i
  | .writeline _ i => some i
  | .userauth _ i args => match args with
    | .ok _ => some i
    | .error _ => none
  | .property i => some i
  | _ => none

/-- Only objects that are up to date are used. -/
def NodeOp.UsesCurrent : Option NodeWorld → NodeOp → Prop
  | some w, op => ∀ i ∈ op.uses, w.Current i
  | none, _ => True

instance (w : NodeWorld) (x : NodeObject) (o : NodeOwner) : Decidable (w.UpToDate x o) :=
  inferInstanceAs (Decidable (_ ∧ _))

instance (w : NodeWorld) (i : Nat) : Decidable (w.Current i) :=
  inferInstanceAs (Decidable (∀ x ∈ w.objs[i]?, _))

instance : (s : Option NodeWorld) → (op : NodeOp) → Decidable (op.UsesCurrent s)
  | some w, op => inferInstanceAs (Decidable (∀ i ∈ op.uses, w.Current i))
  | none, _ => inferInstanceAs (Decidable True)

end Ssh2Python
