import Mathlib.Algebra.Ring.Nat
import Mathlib.Data.List.Basic

/-!
# Flow control by credit

A sender may send as much as it has credit for, and the receiver grants more whenever it likes. What
is sent are chunks with a tag; readers take symbols out of the receiver's buffer, each of them those
of the tags that it wants. `Balanced` carries the file: what the sender may still send, what it was
granted and has not collected yet, what is under way and what is in the buffer are together the
receiver's window.
-/

namespace Lib.Credit

variable {ρ τ β : Type*}

/-! ## Chunks -/

def content (want : τ → Bool) (cs : List (τ × List β)) : List β :=
  (cs.filter fun c => want c.1).flatMap Prod.snd

def size (cs : List (τ × List β)) : Nat :=
  (cs.map fun c => c.2.length).sum

/-- At most `n` symbols of the chunks that are wanted, and what is left. A chunk that is used up
goes. -/
def takeChunks (want : τ → Bool) : Nat → List (τ × List β) → List β × List (τ × List β)
  | _, [] => ([], [])
  | n, c :: cs =>
    if n = 0 then ([], c :: cs)
    else if want c.1 then
      if c.2.length ≤ n then
        (c.2 ++ (takeChunks want (n - c.2.length) cs).1, (takeChunks want (n - c.2.length) cs).2)
      else (c.2.take n, (c.1, c.2.drop n) :: cs)
    else ((takeChunks want n cs).1, c :: (takeChunks want n cs).2)

section

variable {want want' : τ → Bool} {cs ds : List (τ × List β)} {c : τ × List β} {n : Nat}

@[simp] theorem content_nil : content want ([] : List (τ × List β)) = [] := rfl

theorem content_cons (h : want c.1 = true) : content want (c :: cs) = c.2 ++ content want cs := by
  simp [content, h]

theorem content_cons_other (h : want c.1 = false) : content want (c :: cs) = content want cs := by
  simp [content, h]

@[simp] theorem content_append : content want (cs ++ ds) = content want cs ++ content want ds := by
  simp [content]

@[simp] theorem size_nil : size ([] : List (τ × List β)) = 0 := rfl

@[simp] theorem size_cons : size (c :: cs) = c.2.length + size cs := by
  simp [size]

@[simp] theorem size_append : size (cs ++ ds) = size cs + size ds := by
  simp [size]

@[simp] theorem takeChunks_zero : takeChunks want 0 cs = ([], cs) := by
  cases cs <;> simp [takeChunks]

/-- What a reader takes is the first of what it wants. -/
theorem takeChunks_content :
    (takeChunks want n cs).1 ++ content want (takeChunks want n cs).2 = content want cs := by
  induction cs generalizing n with
  | nil => simp [takeChunks]
  | cons c cs ih =>
    unfold takeChunks
    split
    · simp
    · cases h : want c.1 with
      | false => simpa [content_cons_other h] using ih
      | true =>
        simp only [if_true]
        split
        · rw [List.append_assoc, ih, content_cons h]
        · have h' : want (c.1, c.2.drop n).1 = true := h
          rw [content_cons h', content_cons h, ← List.append_assoc, List.take_append_drop]

/-- Nobody else misses it. -/
theorem takeChunks_apart (h : ∀ t, want t = true → want' t = false) :
    content want' (takeChunks want n cs).2 = content want' cs := by
  induction cs generalizing n with
  | nil => simp [takeChunks]
  | cons c cs ih =>
    unfold takeChunks
    split
    · rfl
    · cases hc : want c.1 with
      | false =>
        simp only [Bool.false_eq_true, if_false]
        cases hc' : want' c.1 with
        | false => rw [content_cons_other hc', content_cons_other hc', ih]
        | true => rw [content_cons hc', content_cons hc', ih]
      | true =>
        have hc' := h c.1 hc
        simp only [if_true]
        split
        · rw [content_cons_other hc', ih]
        · have hd : want' (c.1, c.2.drop n).1 = false := hc'
          rw [content_cons_other hd, content_cons_other hc']

theorem takeChunks_size :
    (takeChunks want n cs).1.length + size (takeChunks want n cs).2 = size cs := by
  induction cs generalizing n with
  | nil => simp [takeChunks]
  | cons c cs ih =>
    unfold takeChunks
    split
    · simp
    · cases h : want c.1 with
      | false =>
        have := @ih n
        simp only [Bool.false_eq_true, if_false, size_cons]
        omega
      | true =>
        simp only [if_true]
        split
        · have := @ih (n - c.2.length)
          simp only [List.length_append, size_cons]
          omega
        · simp only [size_cons, List.length_take, List.length_drop]
          omega

/-- A reader that asks for something comes away with nothing only when there is nothing for it. -/
theorem takeChunks_eq_nil (h : (takeChunks want n cs).1 = []) (hn : n ≠ 0) :
    content want cs = [] := by
  induction cs with
  | nil => rfl
  | cons c cs ih =>
    rw [takeChunks, if_neg hn] at h
    cases hc : want c.1 with
    | false =>
      simp only [hc, Bool.false_eq_true, if_false] at h
      rw [content_cons_other hc, ih h]
    | true =>
      simp only [hc, if_true] at h
      split at h
      · next hle =>
        obtain ⟨hnil, h⟩ := List.append_eq_nil_iff.mp h
        rw [hnil, List.length_nil, Nat.sub_zero] at h
        rw [content_cons hc, hnil, ih h, List.nil_append]
      · next hlt => exact absurd (List.take_eq_nil_iff.mp h) (by
          rintro (h | h)
          · exact hn h
          · simp [h] at hlt)

/-- A reader that comes away with nothing leaves to everybody what there was. -/
theorem takeChunks_content_of_nil (h : (takeChunks want n cs).1 = []) :
    content want' (takeChunks want n cs).2 = content want' cs := by
  induction cs generalizing n with
  | nil => simp [takeChunks]
  | cons c cs ih =>
    unfold takeChunks at h ⊢
    split
    · rfl
    · next hn =>
      rw [if_neg hn] at h
      cases hc : want c.1 with
      | false =>
        simp only [hc, Bool.false_eq_true, if_false] at h ⊢
        cases hc' : want' c.1 with
        | false => rw [content_cons_other hc', content_cons_other hc', ih h]
        | true => rw [content_cons hc', content_cons hc', ih h]
      | true =>
        simp only [hc, if_true] at h ⊢
        split at h
        · next hle =>
          obtain ⟨hnil, h⟩ := List.append_eq_nil_iff.mp h
          rw [if_pos hle, ih h]
          cases hc' : want' c.1 with
          | false => rw [content_cons_other hc']
          | true => rw [content_cons hc', hnil, List.nil_append]
        · next hlt => exact absurd (List.take_eq_nil_iff.mp h) (by
            rintro (h | h)
            · exact hn h
            · simp [h] at hlt)

end

/-! ## The link -/

/-- A sender and a receiver, with everything that was sent so far and what each reader took. -/
structure Link (ρ τ β : Type*) where
  sent : List (τ × List β)
  credit : Nat
  grants : List Nat
  flight : List (τ × List β)
  buffer : List (τ × List β)
  window : Nat
  taken : List (ρ × List β)

namespace Link

/-- What a link does. `want r` are the tags of the reader `r`. -/
inductive Step (want : ρ → τ → Bool) : Link ρ τ β → Link ρ τ β → Prop
  | send (l : Link ρ τ β) (c : τ × List β) (credit : c.2.length ≤ l.credit) :
      Step want l { l with
        sent := l.sent ++ [c], credit := l.credit - c.2.length, flight := l.flight ++ [c] }
  | deliver (l : Link ρ τ β) (c : τ × List β) (cs : List (τ × List β))
      (flight : l.flight = c :: cs) :
      Step want l { l with flight := cs, buffer := l.buffer ++ [c] }
  | discard (l : Link ρ τ β) (c : τ × List β) (cs : List (τ × List β)) (flight : l.flight = c :: cs)
      (empty : c.2 = []) : Step want l { l with flight := cs }
  | grant (l : Link ρ τ β) (n : Nat) :
      Step want l { l with grants := l.grants ++ [n], window := l.window + n }
  | collect (l : Link ρ τ β) (n : Nat) (ns : List Nat) (grants : l.grants = n :: ns) :
      Step want l { l with grants := ns, credit := l.credit + n }
  | take (l : Link ρ τ β) (r : ρ) (n : Nat) :
      Step want l { l with
        buffer := (takeChunks (want r) n l.buffer).2
        window := l.window - (takeChunks (want r) n l.buffer).1.length
        taken := l.taken ++ [(r, (takeChunks (want r) n l.buffer).1)] }
  | sweep (l : Link ρ τ β) (r : ρ) (n : Nat) (none : (takeChunks (want r) n l.buffer).1 = []) :
      Step want l { l with buffer := (takeChunks (want r) n l.buffer).2 }

def Balanced (l : Link ρ τ β) : Prop :=
  l.credit + l.grants.sum + size l.flight + size l.buffer = l.window

/-- **What arrives fits**: there is room in the window beside what is in the buffer. -/
theorem Balanced.fits {l : Link ρ τ β} (h : l.Balanced) {c : τ × List β} {cs : List (τ × List β)}
    (hf : l.flight = c :: cs) : size l.buffer + c.2.length ≤ l.window := by
  unfold Balanced at h
  rw [hf, size_cons] at h
  omega

theorem Balanced.buffer_le {l : Link ρ τ β} (h : l.Balanced) : size l.buffer ≤ l.window := by
  unfold Balanced at h
  omega

theorem Step.balanced {want : ρ → τ → Bool} {l l' : Link ρ τ β} (h : Step want l l')
    (hl : l.Balanced) : l'.Balanced := by
  unfold Balanced at hl ⊢
  cases h with
  | send c hc =>
    simp only [size_append, size_cons, size_nil]
    omega
  | deliver c cs hf =>
    rw [hf] at hl
    simp only [size_append, size_cons, size_nil] at hl ⊢
    omega
  | discard c cs hf he =>
    rw [hf, size_cons, he, List.length_nil, Nat.zero_add] at hl
    exact hl
  | grant n =>
    simp only [List.sum_append, List.sum_cons, List.sum_nil]
    omega
  | collect n ns hg =>
    rw [hg, List.sum_cons] at hl
    dsimp only
    omega
  | take r n =>
    have h := @takeChunks_size τ β (want r) l.buffer n
    dsimp only
    omega
  | sweep r n hnone =>
    have h := @takeChunks_size τ β (want r) l.buffer n
    rw [hnone, List.length_nil] at h
    dsimp only
    omega

/-- What a reader took so far. -/
def takenBy [DecidableEq ρ] (r : ρ) (taken : List (ρ × List β)) : List β :=
  (taken.filter fun t => t.1 = r).flatMap Prod.snd

/-- The readers so far want nothing that `r` wants. -/
def Alone (want : ρ → τ → Bool) (r : ρ) (taken : List (ρ × List β)) : Prop :=
  ∀ t ∈ taken, t.1 ≠ r → ∀ tag, want t.1 tag = true → want r tag = false

/-- Nothing that a reader wants is lost, doubled or out of its order. -/
def Kept [DecidableEq ρ] (want : ρ → τ → Bool) (l : Link ρ τ β) : Prop :=
  ∀ r, Alone want r l.taken →
    takenBy r l.taken ++ content (want r) (l.buffer ++ l.flight) = content (want r) l.sent

theorem Step.kept [DecidableEq ρ] {want : ρ → τ → Bool} {l l' : Link ρ τ β} (h : Step want l l')
    (hl : Kept want l) : Kept want l' := by
  intro r halone
  cases h with
  | send c hc =>
    have := hl r halone
    rw [← List.append_assoc, content_append, ← List.append_assoc, this, ← content_append]
  | deliver c cs hf =>
    have := hl r halone
    rw [hf] at this
    rwa [List.append_assoc]
  | discard c cs hf he =>
    have := hl r halone
    rw [hf, content_append] at this
    cases hc : want r c.1 with
    | true => rwa [content_cons hc, he, List.nil_append, ← content_append] at this
    | false => rwa [content_cons_other hc, ← content_append] at this
  | grant n => exact hl r halone
  | collect n ns hg => exact hl r halone
  | take r' n =>
    have hold := hl r fun t ht => halone t (List.mem_append_left _ ht)
    dsimp only
    rw [content_append] at hold ⊢
    by_cases hr : r' = r
    · subst hr
      have htaken : takenBy r' (l.taken ++ [(r', (takeChunks (want r') n l.buffer).1)])
          = takenBy r' l.taken ++ (takeChunks (want r') n l.buffer).1 := by
        simp [takenBy]
      rw [htaken, ← hold, ← @takeChunks_content τ β (want r') l.buffer n]
      simp only [List.append_assoc]
    · have htaken : takenBy r (l.taken ++ [(r', (takeChunks (want r') n l.buffer).1)])
          = takenBy r l.taken := by
        simp [takenBy, hr]
      have happart := halone (r', (takeChunks (want r') n l.buffer).1)
        (List.mem_append_right _ (List.mem_singleton.mpr rfl)) hr
      rw [htaken, takeChunks_apart happart, hold]
  | sweep r' n hnone =>
    have hold := hl r halone
    dsimp only
    rw [content_append] at hold ⊢
    rw [takeChunks_content_of_nil hnone, hold]

end Link

end Lib.Credit
