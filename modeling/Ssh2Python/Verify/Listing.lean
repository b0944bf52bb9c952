import Mathlib.Data.Nat.Find
import Ssh2Python.Listing
import Ssh2Python.Verify.Nodes

/-!
# Which listings are faithful

What the iterator comes across from a node decides what the loop collects, up to the first call that
fails (`collect_complete` and `collect_fault`). `KnownHost.get` looks at the code that ended the
loop and `Agent.get_identities` does not. That the native lists hold distinct nodes, so that a node
tells where it stands, is the invariant of the machine of the nodes.
-/

namespace Ssh2Python

open Lib.Cursor Lib.Ledger Lib.Run

/-! ## The loop -/

namespace NativeList

variable {l : NativeList} {store prev : Option Nat} {call fuel : Nat} {rest : List Nat}

theorem get_fault {rc : Int} (h : l.fault call = some rc) :
    l.get call store prev = (rc, store) := by
  simp only [get, h]

theorem get_found {n : Nat} (h : l.fault call = none) (hn : next l.nodes prev = some n) :
    l.get call store prev = (0, some n) := by
  simp only [get, h, hn]

theorem get_end (h : l.fault call = none) (hn : next l.nodes prev = none) :
    l.get call store prev = (1, store) := by
  simp only [get, h, hn]

theorem collect_found {n : Nat} (h : l.get call store prev = (0, some n)) :
    l.collect (fuel + 1) call store prev =
      (l.collect fuel (call + 1) (some n) (some n)).map fun r => (some n :: r.1, r.2) := by
  rw [collect, h, if_pos rfl]

theorem collect_stop {rc : Int} (h : l.get call store prev = (rc, store)) (hrc : rc ≠ 0) :
    l.collect (fuel + 1) call store prev = some ([], rc) := by
  rw [collect, h, if_neg hrc]

/-- No call fails: the loop collects what the iterator comes across. -/
theorem collect_complete (h : Enumerates (next l.nodes) prev rest)
    (hfault : ∀ i, call ≤ i → i ≤ call + rest.length → l.fault i = none)
    (hfuel : rest.length < fuel) :
    l.collect fuel call store prev = some (rest.map some, 1) := by
  induction h generalizing call store fuel with
  | nil hn =>
    obtain ⟨fuel, rfl⟩ := Nat.exists_eq_add_one.mpr hfuel
    have hnone := hfault call (Nat.le_refl _) (Nat.le_add_right _ _)
    exact collect_stop (get_end hnone hn) (by decide)
  | @cons p n rest hn _ ih =>
    rw [List.length_cons] at hfault hfuel
    obtain ⟨fuel, rfl⟩ := Nat.exists_eq_add_one.mpr (Nat.zero_lt_of_lt hfuel)
    have hnone := hfault call (Nat.le_refl _) (Nat.le_add_right _ _)
    have hrest : l.collect fuel (call + 1) (some n) (some n) = some (rest.map some, 1) :=
      ih (fun i hi hi' => hfault i (by omega) (by omega)) (by omega)
    rw [collect_found (get_found hnone hn), hrest]
    rfl

/-- A call fails: the loop ends there, with what was found up to then. -/
theorem collect_fault {j : Nat} {rc : Int} (h : Enumerates (next l.nodes) prev rest)
    (hj : j ≤ rest.length) (hbefore : ∀ i, call ≤ i → i < call + j → l.fault i = none)
    (hfault : l.fault (call + j) = some rc) (hfuel : j < fuel) :
    l.collect fuel call store prev = some ((rest.take j).map some, rc) := by
  have hneg : rc ≠ 0 := Int.ne_of_lt (l.neg _ rc hfault)
  induction j generalizing call store prev rest fuel with
  | zero =>
    obtain ⟨fuel, rfl⟩ := Nat.exists_eq_add_one.mpr hfuel
    exact collect_stop (get_fault hfault) hneg
  | succ j ih =>
    obtain ⟨fuel, rfl⟩ := Nat.exists_eq_add_one.mpr (Nat.zero_lt_of_lt hfuel)
    cases h with
    | nil hn => exact absurd hj (Nat.not_succ_le_zero j)
    | @cons _ n rest hn hs =>
      have hnone := hbefore call (Nat.le_refl _) (by omega)
      have hshift : call + 1 + j = call + (j + 1) := by omega
      have hrest : l.collect fuel (call + 1) (some n) (some n) =
          some ((rest.take j).map some, rc) :=
        ih hs (Nat.le_of_succ_le_succ hj) (fun i hi hi' => hbefore i (by omega) (by omega))
          (hshift ▸ hfault) (by omega)
      rw [collect_found (get_found hnone hn), hrest]
      rfl

/-- The first call that fails. -/
theorem exists_first_fault {n : Nat} (h : ∃ i ≤ n, l.fault i ≠ none) :
    ∃ j ≤ n, (∀ i < j, l.fault i = none) ∧ ∃ rc, l.fault j = some rc := by
  have hex : ∃ i, l.fault i ≠ none := h.imp fun i hi => hi.2
  obtain ⟨i, hi, hfault⟩ := h
  have hfirst := Nat.find_min' hex hfault
  refine ⟨Nat.find hex, hfirst.trans hi, fun m hm => ?_,
    Option.ne_none_iff_exists'.mp (Nat.find_spec hex)⟩
  exact not_not.mp (Nat.find_min hex hm)

end NativeList

/-! ## The methods -/

namespace Listing

variable {l : NativeList} {rest : List Nat}

/-- **`KnownHost.get`** lists what the iterator comes across, or raises. -/
theorem get_lists {prev : Option Nat} (h : Enumerates (next l.nodes) prev rest)
    (hcovers : (Listing.get prev).Covers l rest) : (Listing.get prev).Lists l rest where
  covers := hcovers
  complete _ hfault fuel hfuel := by
    have hcollect : l.collect fuel 0 none prev = some (rest.map some, 1) :=
      NativeList.collect_complete h (fun i _ hi => hfault i (by omega)) hfuel
    rw [run, knownHostGet, hcollect]
    rfl
  raises hraise fuel hfuel := by
    have hfaults : ∃ i ≤ rest.length, l.fault i ≠ none := hraise.resolve_left fun hne => hne rfl
    obtain ⟨j, hj, hbefore, rc, hrc⟩ := NativeList.exists_first_fault hfaults
    have hcollect : l.collect fuel 0 none prev = some ((rest.take j).map some, rc) :=
      NativeList.collect_fault h hj (fun i _ hi => hbefore i (by omega))
        ((Nat.zero_add j).symm ▸ hrc) (Nat.lt_of_le_of_lt hj hfuel)
    refine ⟨knownHostGetError rc, ?_, rfl⟩
    rw [run, knownHostGet, hcollect, Option.map_some, if_pos (l.neg j rc hrc)]

/-- **`Agent.get_identities`** returns, whatever the code that ended the loop. -/
theorem getIdentities_fault (h : Enumerates (next l.nodes) none rest)
    (hfaults : ∃ i ≤ rest.length, l.fault i ≠ none) {fuel : Nat} (hfuel : rest.length < fuel) :
    ∃ ids, (Listing.getIdentities 0).run l fuel = some (.ok ids) ∧ ids.length ≤ rest.length := by
  obtain ⟨j, hj, hbefore, rc, hrc⟩ := NativeList.exists_first_fault hfaults
  have hcollect : l.collect fuel 0 none none = some ((rest.take j).map some, rc) :=
    NativeList.collect_fault h hj (fun i _ hi => hbefore i (by omega))
      ((Nat.zero_add j).symm ▸ hrc) (Nat.lt_of_le_of_lt hj hfuel)
  refine ⟨(rest.take j).map some, ?_, by simp [hj]⟩
  rw [run, agentGetIdentities, if_neg (not_not_intro rfl), hcollect]
  rfl

theorem getIdentities_lists {listRc : Int} (h : Enumerates (next l.nodes) none l.nodes)
    (hfault : listRc ≠ 0 ∨ ∀ i ≤ l.nodes.length, l.fault i = none) :
    (Listing.getIdentities listRc).Lists l l.nodes where
  covers := rfl
  complete hrc hfault fuel hfuel := by
    have hcollect : l.collect fuel 0 none none = some (l.nodes.map some, 1) :=
      NativeList.collect_complete h (fun i _ hi => hfault i (by omega)) hfuel
    obtain rfl : listRc = 0 := hrc
    rw [run, agentGetIdentities, if_neg (not_not_intro rfl), hcollect]
    rfl
  raises hraise fuel hfuel := by
    have hrc : listRc ≠ 0 := by
      rcases hraise with hrc | ⟨i, hi, hfaulti⟩
      · exact hrc
      · exact hfault.resolve_right fun hnone => hfaulti (hnone i hi)
    refine ⟨agentListIdentitiesError, ?_, rfl⟩
    rw [run, agentGetIdentities, if_pos hrc]

/-- **A list of distinct nodes**: `get` is faithful to it, from the start and from each of its
entries, and `get_identities` if no call of the iterator fails. -/
theorem faithful_iff_of_nodup {s : Listing} (hnodup : l.nodes.Nodup) (hlive : s.Live l) :
    s.Faithful l ↔ s.FaultFree l := by
  have hall := enumerates_all hnodup
  cases s with
  | get prev =>
    refine iff_of_true ?_ trivial
    cases prev with
    | none => exact ⟨l.nodes, get_lists hall rfl⟩
    | some n =>
      obtain ⟨pre, rest, hsplit⟩ := List.append_of_mem hlive
      exact ⟨rest, get_lists (enumerates_behind hnodup hsplit) ⟨pre, hsplit⟩⟩
  | getIdentities listRc =>
    constructor
    · rintro ⟨rest, hlists⟩
      obtain rfl : rest = l.nodes := hlists.covers
      by_contra hfaulty
      simp only [FaultFree, not_or, not_not, not_forall] at hfaulty
      obtain ⟨rfl, i, hi, hfault⟩ := hfaulty
      have hfaults : ∃ i ≤ l.nodes.length, l.fault i ≠ none := ⟨i, hi, hfault⟩
      obtain ⟨ids, hok, -⟩ := getIdentities_fault hall hfaults (Nat.lt_succ_self _)
      obtain ⟨e, herror, -⟩ := hlists.raises (.inr hfaults) _ (Nat.lt_succ_self _)
      cases hok.symm.trans herror
    · exact fun hfault => ⟨l.nodes, getIdentities_lists hall hfault⟩

end Listing

/-! ## Collections that are reached -/

section

variable {w : NodeWorld} {b : Books Nat} {o : NodeOwner} {k n : Nat}

theorem flatMap_eq_of_unique {xs : List Nat} {f : Nat → List Nat} (hxs : xs.Nodup) (hk : k ∈ xs)
    (h : ∀ i ∈ xs, i ≠ k → f i = []) : xs.flatMap f = f k := by
  obtain ⟨pre, post, rfl⟩ := List.append_of_mem hk
  have hnil (ys : List Nat) (hys : ∀ i ∈ ys, i ∈ pre ++ k :: post ∧ i ≠ k) : ys.flatMap f = [] :=
    List.flatMap_eq_nil_iff.mpr fun i hi => h i (hys i hi).1 (hys i hi).2
  have hpre : pre.flatMap f = [] := hnil pre fun i hi =>
    ⟨List.mem_append_left _ hi, fun hik => not_mem_of_nodup hxs (hik ▸ hi)⟩
  have hpost : post.flatMap f = [] := hnil post fun i hi =>
    ⟨List.mem_append_right _ (List.mem_cons_of_mem _ hi), fun hik =>
      (List.nodup_cons.mp (List.nodup_append.mp hxs).2.1).1 (hik ▸ hi)⟩
  rw [List.flatMap_append, List.flatMap_cons, hpre, hpost, List.nil_append, List.append_nil]

/-- The nodes that the machine takes for those behind `n` stand behind `n` in its list. -/
theorem ListsLive.following_eq (h : ListsLive w b) (hk : w.owners k = some o) (hn : n ∈ o.nodes) :
    w.following n = behind o.nodes n := by
  unfold NodeWorld.following
  rw [flatMap_eq_of_unique List.nodup_range (List.mem_range.mpr (h.bound k o hk)), hk]
  · rfl
  · intro i _ hik
    cases hi : w.owners i with
    | none => rfl
    | some o' => exact behind_eq_nil fun hn' => hik (h.apart i o' k o n hi hk hn' hn)

/-- **The machine takes what the loop returns**: all nodes of a collection, or those behind an
entry. -/
theorem knownHostGet_following {l : NativeList} (h : ListsLive w b) (hk : w.owners k = some o)
    (hl : l.nodes = o.nodes) (hfault : ∀ i, l.fault i = none) {fuel : Nat}
    (hfuel : o.nodes.length < fuel) :
    knownHostGet l none fuel = some (.ok (o.nodes.map some)) ∧
      ∀ n ∈ o.nodes, knownHostGet l (some n) fuel = some (.ok ((w.following n).map some)) := by
  have hnodup : l.nodes.Nodup := hl ▸ h.nodup k o hk
  constructor
  · have hlists := Listing.get_lists (enumerates_all hnodup) rfl
    exact hl ▸ hlists.complete rfl (fun i _ => hfault i) fuel (hl ▸ hfuel)
  · intro n hn
    obtain ⟨pre, rest, hsplit⟩ := List.append_of_mem hn
    have hlsplit : l.nodes = pre ++ n :: rest := hl.trans hsplit
    have hlists := Listing.get_lists (enumerates_behind hnodup hlsplit) ⟨pre, hlsplit⟩
    rw [h.following_eq hk hn, hsplit,
      behind_append (not_mem_of_nodup (hsplit ▸ h.nodup k o hk))]
    refine hlists.complete rfl (fun i _ => hfault i) fuel ?_
    rw [hsplit, List.length_append, List.length_cons] at hfuel
    omega

/-- **Listings of what a run has reached** are faithful, those of identities if no call of the
iterator fails. -/
theorem listing_faithful_iff {ops : List NodeOp} {es : List (Event Nat)}
    (hrun : Runs nodeStep (fun _ _ => True) (some .start) ops es (some w))
    (hk : w.owners k = some o) (l : NativeList) (hl : l.nodes = o.nodes) (s : Listing)
    (hlive : s.Live l) : s.Faithful l ↔ s.FaultFree l := by
  obtain ⟨b, htracked⟩ := tracked_of_run hrun
  exact Listing.faithful_iff_of_nodup (hl ▸ htracked.lists.nodup k o hk) hlive

end

/-- Three hosts, of which the second is deleted, and the listing behind the first; and an agent
whose two identities are listed. -/
theorem listing_faithful_example :
    (Listing.get (some 0)).Faithful ⟨[0, 2], fun _ => none, fun _ _ h => by cases h⟩ ∧
      (Listing.getIdentities 0).Faithful ⟨[0, 1], fun _ => none, fun _ _ h => by cases h⟩ := by
  have hhosts : ∃ es w o, Runs nodeStep (fun _ _ => True) (some .start)
      [.init .knownHost, .addc 0 0, .addc 0 0, .readline 0 1, .delete 0 1] es (some w) ∧
      w.owners 0 = some o ∧ o.nodes = [0, 2] :=
    ⟨_, _, _, runs_of_exec rfl, rfl, rfl⟩
  have hagent : ∃ es w o, Runs nodeStep (fun _ _ => True) (some .start)
      [.init .agent, .getIdentities 0 0 2] es (some w) ∧ w.owners 0 = some o ∧ o.nodes = [0, 1] :=
    ⟨_, _, _, runs_of_exec rfl, rfl, rfl⟩
  constructor
  · obtain ⟨es, w, o, hrun, hk, hnodes⟩ := hhosts
    exact (listing_faithful_iff hrun hk _ hnodes.symm (.get (some 0)) List.mem_cons_self).mpr
      trivial
  · obtain ⟨es, w, o, hrun, hk, hnodes⟩ := hagent
    exact (listing_faithful_iff hrun hk _ hnodes.symm (.getIdentities 0) trivial).mpr
      (.inr fun _ _ => rfl)

/-- An agent with two identities whose iterator fails at the second. -/
def failingAgent : NativeList where
  nodes := [0, 1]
  fault i := if i = 1 then some ErrorCode.agentProtocol.value else none
  neg i rc h := by
    obtain ⟨-, hrc⟩ := Option.ite_none_right_eq_some.mp h
    obtain rfl := Option.some.inj hrc
    decide

/-- The first identity is returned as if it were the only one. -/
theorem getIdentities_shortened :
    agentGetIdentities failingAgent 0 3 = some (.ok [some 0]) ∧
      ¬(Listing.getIdentities 0).Faithful failingAgent := by
  refine ⟨by decide, ?_⟩
  rintro ⟨rest, hlists⟩
  obtain rfl : rest = [0, 1] := hlists.covers
  obtain ⟨e, herror, -⟩ := hlists.raises (.inr ⟨1, by decide, by decide⟩) 3 (by decide)
  cases herror

/-! ## The codes alone -/

theorem getIdentitiesLoop_codes (l : NativeList) (agent : AgentPtr) (fuel found call : Nat)
    (store prev : Option Nat) :
    (getIdentitiesLoop agent found (l.codes fuel call store prev)).result =
      .ok ((l.collect fuel call store prev).map fun r => List.range (found + r.1.length)) := by
  induction fuel generalizing found call store prev with
  | zero => rfl
  | succ fuel ih =>
    rw [NativeList.codes, NativeList.collect, getIdentitiesLoop]
    by_cases hrc : (l.get call store prev).1 = 0
    · rw [if_pos hrc, if_pos hrc]
      refine (ih (found + 1) (call + 1) _ _).trans ?_
      rw [Option.map_map]
      refine congrArg Except.ok (congrArg (Option.map · _) (funext fun r => ?_))
      rw [Function.comp_apply, List.length_cons, Nat.add_right_comm, Nat.add_assoc]
    · rw [if_neg hrc, if_neg hrc]
      rfl

/-- **The model with codes alone** finds as many identities. -/
theorem getIdentities_codes (l : NativeList) (a : Agent) (listRc : Int) (fuel : Nat) :
    (a.getIdentities listRc (l.codes fuel 0 none none)).result =
      (agentGetIdentities l listRc fuel).elim (.ok none) fun r =>
        r.map fun ids => some (List.range ids.length) := by
  unfold Agent.getIdentities agentGetIdentities
  by_cases hrc : listRc = 0
  · subst hrc
    refine (getIdentitiesLoop_codes l a.agent fuel 0 0 none none).trans ?_
    cases l.collect fuel 0 none none with
    | none => rfl
    | some r => simp [Except.map]
  · simp only [ne_eq, hrc, not_false_eq_true, if_true]
    rfl

end Ssh2Python
