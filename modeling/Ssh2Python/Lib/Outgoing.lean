import Mathlib.Data.List.Basic

/-!
# A line that takes one message at a time

A message that the line does not take to its end stays in the way: until its owner offers it again
and it gets through, nothing else does. `gone` are the messages that got through.
-/

namespace Lib.Outgoing

variable {κ μ : Type*}

/-- What a push does to the message under it. -/
inductive Push
  | through
  | stuck
  | broken
  deriving DecidableEq, Repr

inductive Answer
  | gone
  | wait
  | failed
  deriving DecidableEq, Repr

structure Outbox (κ μ : Type*) where
  pending : Option (κ × μ) := none
  gone : List μ := []
  deriving DecidableEq, Repr

namespace Outbox

/-- The owner `k` offers a message. -/
def offer [DecidableEq κ] (b : Outbox κ μ) (k : κ) (m : μ) (p : Push) : Answer × Outbox κ μ :=
  match b.pending with
  | none =>
    match p with
    | .through => (.gone, { b with gone := b.gone ++ [m] })
    | .stuck => (.wait, { b with pending := some (k, m) })
    | .broken => (.failed, b)
  | some (k', m') =>
    if k = k' then
      match p with
      | .through => (.gone, { pending := none, gone := b.gone ++ [m'] })
      | .stuck => (.wait, b)
      | .broken => (.failed, b)
    else (.wait, b)

variable [DecidableEq κ] {b : Outbox κ μ} {k : κ} {m : μ} {p : Push}

/-- **What an offer comes to**: the owner's message gets through, the one it has in the way already
or the new one, or no message does. Only an offer on a free line puts a message in the way. -/
theorem offer_cases (b : Outbox κ μ) (k : κ) (m : μ) (p : Push) :
    (p = .through ∧ ∃ m', (b.pending = none ∧ m' = m ∨ b.pending = some (k, m')) ∧
      b.offer k m p = (.gone, { pending := none, gone := b.gone ++ [m'] })) ∨
    (∃ b', b.offer k m p = (.wait, b') ∧ b'.gone = b.gone ∧
      (b'.pending = b.pending ∨ b.pending = none ∧ b'.pending = some (k, m))) ∨
    (p = .broken ∧ b.offer k m p = (.failed, b)) := by
  obtain ⟨pending, gone⟩ := b
  cases pending with
  | none =>
    cases p with
    | through => exact .inl ⟨rfl, m, .inl ⟨rfl, rfl⟩, rfl⟩
    | stuck => exact .inr (.inl ⟨_, rfl, rfl, .inr ⟨rfl, rfl⟩⟩)
    | broken => exact .inr (.inr ⟨rfl, rfl⟩)
  | some km =>
    obtain ⟨k', m'⟩ := km
    by_cases h : k = k'
    · subst h
      cases p with
      | through => exact .inl ⟨rfl, m', .inr rfl, by simp [offer]⟩
      | stuck => exact .inr (.inl ⟨⟨some (k, m'), gone⟩, by simp [offer], rfl, .inl rfl⟩)
      | broken => exact .inr (.inr ⟨rfl, by simp [offer]⟩)
    · exact .inr (.inl ⟨⟨some (k', m'), gone⟩, by simp [offer, h], rfl, .inl rfl⟩)

end Outbox

end Lib.Outgoing
