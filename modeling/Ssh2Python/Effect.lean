import Ssh2Python.Errors

/-!
# What a method did

A method of the bindings is a function of its arguments and of what its native calls give. Its
`Effect` is those calls, in order, and its Python result. Methods that make several calls are
written in the monad of effects: the calls of the parts follow each other, up to an exception.
-/

namespace Ssh2Python

structure Effect (κ α : Type) where
  calls : List κ
  result : Except PyExc α

namespace Effect

variable {κ α β : Type}

def bind (e : Effect κ α) (f : α → Effect κ β) : Effect κ β :=
  match e.result with
  | .ok a => ⟨e.calls ++ (f a).calls, (f a).result⟩
  | .error exc => ⟨e.calls, .error exc⟩

instance : Monad (Effect κ) where
  pure a := ⟨[], .ok a⟩
  bind := bind

/-- A single native call. -/
def emit (c : κ) : Effect κ Unit :=
  ⟨[c], .ok ()⟩

def raise (exc : PyExc) : Effect κ α :=
  ⟨[], .error exc⟩

def lift (r : Except PyExc α) : Effect κ α :=
  ⟨[], r⟩

/-- The same with the calls under other names. -/
def mapCalls {κ' : Type} (f : κ → κ') (e : Effect κ α) : Effect κ' α :=
  ⟨e.calls.map f, e.result⟩

@[simp] theorem calls_emit_bind (c : κ) (f : Unit → Effect κ β) :
    (emit c >>= f).calls = c :: (f ()).calls := rfl

@[simp] theorem ok_bind (cs : List κ) (a : α) (f : α → Effect κ β) :
    ((⟨cs, .ok a⟩ : Effect κ α) >>= f) = ⟨cs ++ (f a).calls, (f a).result⟩ := rfl

@[simp] theorem error_bind (cs : List κ) (exc : PyExc) (f : α → Effect κ β) :
    ((⟨cs, .error exc⟩ : Effect κ α) >>= f) = ⟨cs, .error exc⟩ := rfl

@[simp] theorem lift_ok_bind (a : α) (f : α → Effect κ β) : (lift (.ok a) >>= f) = f a := rfl

@[simp] theorem lift_error_bind (exc : PyExc) (f : α → Effect κ β) :
    (lift (.error exc) >>= f) = raise exc := rfl

section

variable {κ' κ'' : Type} (g : κ → κ')

@[simp] theorem mapCalls_emit (c : κ) : (emit c).mapCalls g = emit (g c) := rfl

@[simp] theorem mapCalls_raise (exc : PyExc) : (raise exc : Effect κ α).mapCalls g = raise exc :=
  rfl

@[simp] theorem mapCalls_bind (e : Effect κ α) (f : α → Effect κ β) :
    (e >>= f).mapCalls g = e.mapCalls g >>= fun a => (f a).mapCalls g := by
  obtain ⟨calls, result⟩ := e
  cases result with
  | error exc => rfl
  | ok a =>
    rw [ok_bind, mapCalls, List.map_append]
    rfl

theorem mapCalls_mapCalls (g' : κ' → κ'') (e : Effect κ α) :
    (e.mapCalls g).mapCalls g' = e.mapCalls (g' ∘ g) := by
  rw [mapCalls, mapCalls, mapCalls, List.map_map]

@[simp] theorem mapCalls_id (e : Effect κ α) : e.mapCalls id = e := by
  rw [mapCalls, List.map_id]

end

end Effect

/-- How an operation ended, or that it has not. -/
inductive Ending
  | suspended
  | normal
  | raised (e : PyExc)
  deriving DecidableEq, Repr

def Effect.ending {κ α : Type} (e : Effect κ α) : Ending :=
  match e.result with
  | .ok _ => .normal
  | .error exc => .raised exc

end Ssh2Python
