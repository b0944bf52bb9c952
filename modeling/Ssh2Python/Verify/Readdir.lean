import Ssh2Python.SftpHandle

/-!
# What the two listings yield

A generator that has gone through some fetches has yielded its variables, one update after the
other: `revise` is that list, and `generate_yields` and `generate_calls` say so of the loop for any
update. `readdir` replaces its variables and so yields the listing; `readdir_ex` keeps the long
entry of the first result, and yields the listing when no other entry has a different one.
-/

namespace Ssh2Python

/-- The values that the variables take: each result updates them. -/
def revise {β : Type} (update : β → β → β) : Option β → List β → List β
  | _, [] => []
  | vars, b :: bs => assign update vars b :: revise update (some (assign update vars b)) bs

section

variable {ν β : Type} {fetch : ν → Effect HandleCall β} {rc : β → Int} {update : β → β → β}
  {vars : Option β} {n : ν} {ns : List ν} {b : β} {exc : PyExc}

@[simp] theorem revise_length (bs : List β) : (revise update vars bs).length = bs.length := by
  induction bs generalizing vars with
  | nil => rfl
  | cons b bs ih => rw [revise, List.length_cons, List.length_cons, ih]

theorem fetched_ok (h : (fetch n).result = .ok b) :
    fetched fetch (n :: ns) = b :: fetched fetch ns := by
  rw [fetched, h]

theorem fetched_error (h : (fetch n).result = .error exc) : fetched fetch (n :: ns) = [] := by
  rw [fetched, h]

theorem listing_go (h : (fetch n).result = .ok b) (hgo : goesOn rc b = true) :
    listing fetch rc (n :: ns) = b :: listing fetch rc ns := by
  rw [listing, fetched_ok h, List.takeWhile_cons_of_pos hgo]
  rfl

theorem listing_stop (h : (fetch n).result = .ok b) (hgo : ¬goesOn rc b = true) :
    listing fetch rc (n :: ns) = [] := by
  rw [listing, fetched_ok h, List.takeWhile_cons_of_neg hgo]

theorem listing_error (h : (fetch n).result = .error exc) : listing fetch rc (n :: ns) = [] := by
  rw [listing, fetched_error h]
  rfl

/-! ## One round of the loop -/

theorem generate_error (h : (fetch n).result = .error exc) :
    generate fetch rc update vars (n :: ns) =
      { calls := (fetch n).calls, ending := .raised exc } := by
  simp only [generate, h]

theorem generate_stop (h : (fetch n).result = .ok b)
    (hgo : ¬goesOn rc (assign update vars b) = true) :
    generate fetch rc update vars (n :: ns) =
      { calls := (fetch n).calls, ending := .finished } := by
  rw [goesOn, decide_eq_true_iff] at hgo
  simp only [generate, h, if_neg hgo]

theorem generate_go (h : (fetch n).result = .ok b) (hgo : goesOn rc (assign update vars b) = true) :
    generate fetch rc update vars (n :: ns) =
      (generate fetch rc update (some (assign update vars b)) ns).push (fetch n).calls
        (assign update vars b) := by
  rw [goesOn, decide_eq_true_iff] at hgo
  simp only [generate, h, if_pos hgo]

/-! ## The whole loop -/

variable (hupdate : ∀ old new, rc (update old new) = rc new)

include hupdate

theorem goesOn_assign (vars : Option β) (b : β) :
    goesOn rc (assign update vars b) = goesOn rc b := by
  cases vars with
  | none => rfl
  | some old => rw [goesOn, goesOn, assign, hupdate]

theorem generate_yields (vars : Option β) (natives : List ν) :
    (generate fetch rc update vars natives).yields =
    revise update vars (listing fetch rc natives) := by
  induction natives generalizing vars with
  | nil => rfl
  | cons n ns ih =>
    cases hfetch : (fetch n).result with
    | error exc =>
      rw [generate_error hfetch, listing_error hfetch]
      rfl
    | ok b =>
      by_cases hgo : goesOn rc b = true
      · rw [generate_go hfetch ((goesOn_assign hupdate vars b).trans hgo), listing_go hfetch hgo,
          revise, ← ih]
        rfl
      · rw [generate_stop hfetch (by rwa [goesOn_assign hupdate vars b]), listing_stop hfetch hgo]
        rfl

/-- The loop fetches once more than it yields, and it has ended normally when that last fetch had a
result. -/
theorem generate_calls (vars : Option β) (natives : List ν) :
    (generate fetch rc update vars natives).calls =
        (natives.take ((listing fetch rc natives).length + 1)).flatMap (fun n => (fetch n).calls) ∧
      ((generate fetch rc update vars natives).ending = .finished ↔
        ∃ b, (fetched fetch natives)[(listing fetch rc natives).length]? = some b) := by
  induction natives generalizing vars with
  | nil => exact ⟨rfl, GenEnd.noConfusion, fun ⟨b, hb⟩ => absurd hb.symm (Option.some_ne_none b)⟩
  | cons n ns ih =>
    have hone : ([n] : List ν).flatMap (fun n => (fetch n).calls) = (fetch n).calls :=
      List.flatMap_singleton ..
    cases hfetch : (fetch n).result with
    | error exc =>
      rw [generate_error hfetch, listing_error hfetch, fetched_error hfetch]
      exact ⟨hone.symm, GenEnd.noConfusion, fun ⟨b, hb⟩ => absurd hb.symm (Option.some_ne_none b)⟩
    | ok b =>
      by_cases hgo : goesOn rc b = true
      · rw [generate_go hfetch ((goesOn_assign hupdate vars b).trans hgo), listing_go hfetch hgo,
          fetched_ok hfetch]
        obtain ⟨hcalls, hend⟩ := ih (some (assign update vars b))
        refine ⟨?_, hend⟩
        rw [GenRun.push, hcalls]
        rfl
      · rw [generate_stop hfetch (by rwa [goesOn_assign hupdate vars b]), listing_stop hfetch hgo,
          fetched_ok hfetch]
        exact ⟨hone.symm, fun _ => ⟨b, rfl⟩, fun _ => rfl⟩

/-- **What a generator lists**: it is exact when its updates leave the results as they are. -/
theorem generate_listsExactly_iff (natives : List ν) :
    ListsExactly fetch rc natives (generate fetch rc update none natives) ↔
      revise update none (listing fetch rc natives) = listing fetch rc natives := by
  have hyields : (generate fetch rc update none natives).yields = _ :=
    generate_yields hupdate none natives
  have hlength : (generate fetch rc update none natives).yields.length =
      (listing fetch rc natives).length := by rw [hyields, revise_length]
  constructor
  · intro h
    rw [← hyields]
    exact h.yields
  · intro h
    obtain ⟨hcalls, hend⟩ := generate_calls hupdate none natives
    exact ⟨hyields.trans h, by rw [hlength, hcalls], by rw [hlength, hend]⟩

end

/-! ## The two listings -/

theorem revise_replace {β : Type} (vars : Option β) (bs : List β) :
    revise (fun _ new => new) vars bs = bs := by
  induction bs generalizing vars with
  | nil => rfl
  | cons b bs ih =>
    have hassign : assign (fun _ new : β => new) vars b = b := by cases vars <;> rfl
    rw [revise, ih, hassign]

/-- An update that keeps something of its first argument keeps it from the first result on. -/
theorem revise_keep {β : Type} {update : β → β → β}
    (hkeep : ∀ old mid new, update (update old mid) new = update old new) (old : β) (bs : List β) :
    revise update (some old) bs = bs.map (update old) := by
  induction bs generalizing old with
  | nil => rfl
  | cons b bs ih =>
    rw [revise, ih, List.map_cons]
    refine congrArg (List.cons _) (List.map_congr_left fun new _ => ?_)
    exact hkeep old b new

/-- The assignment of `readdir_ex`. -/
def keepLongEntry (old new : Int × List UInt8 × List UInt8 × SftpAttrs) :
    Int × List UInt8 × List UInt8 × SftpAttrs :=
  (new.1, new.2.1, old.2.2.1, new.2.2.2)

theorem keepLongEntry_keepLongEntry (old mid new : Int × List UInt8 × List UInt8 × SftpAttrs) :
    keepLongEntry (keepLongEntry old mid) new = keepLongEntry old new := rfl

theorem keepLongEntry_eq_iff {old new : Int × List UInt8 × List UInt8 × SftpAttrs} :
    keepLongEntry old new = new ↔ new.2.2.1 = old.2.2.1 := by
  constructor
  · intro h
    rw [← h]
    rfl
  · intro h
    rw [keepLongEntry, ← h]

theorem revise_keepLongEntry_iff (bs : List (Int × List UInt8 × List UInt8 × SftpAttrs)) :
    revise keepLongEntry none bs = bs ↔ ∀ r ∈ bs, ∀ r' ∈ bs, r.2.2.1 = r'.2.2.1 := by
  cases bs with
  | nil => exact iff_of_true rfl fun r hr => absurd hr List.not_mem_nil
  | cons b bs =>
    rw [revise, revise_keep keepLongEntry_keepLongEntry, assign]
    have hmap : b :: bs.map (keepLongEntry b) = b :: bs ↔ ∀ r ∈ bs, r.2.2.1 = b.2.2.1 := by
      rw [List.cons_inj_right]
      conv_lhs => rhs; rw [← List.map_id bs]
      rw [List.map_inj_left]
      exact forall₂_congr fun r _ => keepLongEntry_eq_iff
    rw [hmap]
    constructor
    · intro h
      have hfirst : ∀ r ∈ b :: bs, r.2.2.1 = b.2.2.1 := List.forall_mem_cons.mpr ⟨rfl, h⟩
      exact fun r hr r' hr' => (hfirst r hr).trans (hfirst r' hr').symm
    · exact fun h r hr => h r (List.mem_cons_of_mem b hr) b List.mem_cons_self

theorem readdir_listsExactly (maxlen : Nat) (natives : List (Option NativeEntry)) :
    ListsExactly (readdirOnce maxlen) (·.1) natives (sftpHandleReaddir maxlen natives) :=
  (generate_listsExactly_iff (fun _ _ => rfl) natives).mpr (revise_replace none _)

/-- **What the two generators list**: `readdir` always the results as they came; `readdir_ex`
exactly when all of them have the same long entry. -/
theorem readdir_exact_iff (longentryMaxlen maxlen : Nat) (natives : List (Option NativeEntry)) :
    ListsExactly (readdirExOnce longentryMaxlen maxlen) (·.1) natives
        (sftpHandleReaddirEx longentryMaxlen maxlen natives) ∧
      ListsExactly (readdirOnce maxlen) (·.1) natives (sftpHandleReaddir maxlen natives) ↔
    SameLongEntry longentryMaxlen maxlen natives := by
  rw [and_iff_left (readdir_listsExactly maxlen natives)]
  show ListsExactly _ _ natives (generate _ _ keepLongEntry none natives) ↔ _
  refine (generate_listsExactly_iff ?_ natives).trans (revise_keepLongEntry_iff _)
  exact fun _ _ => rfl

/-- The second file of a directory comes with the long entry of the first. -/
theorem readdirEx_not_exact :
    ¬ListsExactly (readdirExOnce 1024 1024) (·.1)
      [some ⟨⟨1, [97]⟩, [120, 0], ⟨0, 0, 0, 0, 0, 0, 0⟩⟩,
        some ⟨⟨1, [98]⟩, [121, 0], ⟨0, 0, 0, 0, 0, 0, 0⟩⟩]
      (sftpHandleReaddirEx 1024 1024
        [some ⟨⟨1, [97]⟩, [120, 0], ⟨0, 0, 0, 0, 0, 0, 0⟩⟩,
          some ⟨⟨1, [98]⟩, [121, 0], ⟨0, 0, 0, 0, 0, 0, 0⟩⟩]) := by
  intro h
  have hyields := h.yields
  revert hyields
  decide

end Ssh2Python
