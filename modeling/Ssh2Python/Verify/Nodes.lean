import Mathlib.Data.List.Nodup
import Mathlib.Data.List.TakeWhile
import Ssh2Python.Nodes

/-!
# Nodes are used while they are live

The nodes of native lists are objects of the ledger. `NodesTracked` is the invariant: the lists hold
live nodes, and an object that is up to date points at a node of its owner's list, any other at a
released one. `node_refines` is one step, and `nodes_valid_iff` says of a run that no released node
is used exactly if only objects that are up to date are.
-/

namespace Ssh2Python

open Lib.Run Lib.Ledger

variable {w w' : NodeWorld} {b b' : Books Nat} {k m n i : Nat} {o o' : NodeOwner} {x : NodeObject}
  {es : List (Event Nat)}

/-! ## Native lists -/

/-- The native lists hold live nodes, each of them once, and the next nodes are new. -/
structure ListsLive (w : NodeWorld) (b : Books Nat) : Prop where
  fresh : ∀ n, w.next ≤ n → b n = .fresh
  bound : ∀ k o, w.owners k = some o → k < w.nextOwner
  live : ∀ k o, w.owners k = some o → ∀ n ∈ o.nodes, b n = .live
  nodup : ∀ k o, w.owners k = some o → o.nodes.Nodup
  apart : ∀ k o k' o' n, w.owners k = some o → w.owners k' = some o' → n ∈ o.nodes →
    n ∈ o'.nodes → k = k'

theorem ListsLive.lt_next (h : ListsLive w b) (hk : w.owners k = some o) (hn : n ∈ o.nodes) :
    n < w.next := by
  by_contra hge
  have hlive := h.live k o hk n hn
  rw [h.fresh n (Nat.le_of_not_lt hge)] at hlive
  exact Status.noConfusion hlive

theorem setOwner_self (w : NodeWorld) (k : Nat) (o : NodeOwner) :
    (w.setOwner k o).owners k = some o :=
  Function.update_self ..

/-- A list that changes may lose nodes and get new ones. The books of the other nodes stay. -/
theorem ListsLive.setOwner (h : ListsLive w b) (hk : w.owners k = some o)
    (hfresh : ∀ n, m ≤ n → b' n = .fresh) (hlive : ∀ n ∈ o'.nodes, b' n = .live)
    (hnodup : o'.nodes.Nodup) (hnodes : ∀ n ∈ o'.nodes, n ∈ o.nodes ∨ w.next ≤ n)
    (hothers : ∀ n, n ∉ o.nodes → n < w.next → b' n = b n) :
    ListsLive { w.setOwner k o' with next := m } b' := by
  have hcases : ∀ k₁ o₁, Function.update w.owners k (some o') k₁ = some o₁ →
      k₁ = k ∧ o₁ = o' ∨ k₁ ≠ k ∧ w.owners k₁ = some o₁ := by
    intro k₁ o₁ h₁
    by_cases hk₁ : k₁ = k
    · subst hk₁
      rw [Function.update_self] at h₁
      exact .inl ⟨rfl, (Option.some.inj h₁).symm⟩
    · rw [Function.update_of_ne hk₁] at h₁
      exact .inr ⟨hk₁, h₁⟩
  -- a node of the changed list is in no other one
  have hnot : ∀ k₁ o₁ n, k₁ ≠ k → w.owners k₁ = some o₁ → n ∈ o₁.nodes → n ∉ o'.nodes := by
    intro k₁ o₁ n hne h₁ hn hn'
    rcases hnodes n hn' with hold | hnew
    · exact hne (h.apart k₁ o₁ k o n h₁ hk hn hold)
    · exact absurd (h.lt_next h₁ hn) (Nat.not_lt.mpr hnew)
  refine ⟨hfresh, ?_, ?_, ?_, ?_⟩
  · intro k₁ o₁ h₁
    rcases hcases k₁ o₁ h₁ with ⟨rfl, -⟩ | ⟨-, h₁⟩
    · exact h.bound k₁ o hk
    · exact h.bound k₁ o₁ h₁
  · intro k₁ o₁ h₁ n hn
    rcases hcases k₁ o₁ h₁ with ⟨-, rfl⟩ | ⟨hne, h₁⟩
    · exact hlive n hn
    · rw [hothers n (fun hold => hne (h.apart k₁ o₁ k o n h₁ hk hn hold)) (h.lt_next h₁ hn)]
      exact h.live k₁ o₁ h₁ n hn
  · intro k₁ o₁ h₁
    rcases hcases k₁ o₁ h₁ with ⟨-, rfl⟩ | ⟨-, h₁⟩
    · exact hnodup
    · exact h.nodup k₁ o₁ h₁
  · intro k₁ o₁ k₂ o₂ n h₁ h₂ hn₁ hn₂
    rcases hcases k₁ o₁ h₁ with ⟨hk₁, ho₁⟩ | ⟨hne₁, hw₁⟩
    · rcases hcases k₂ o₂ h₂ with ⟨hk₂, -⟩ | ⟨hne₂, hw₂⟩
      · exact hk₁.trans hk₂.symm
      · exact absurd (ho₁ ▸ hn₁) (hnot k₂ o₂ n hne₂ hw₂ hn₂)
    · rcases hcases k₂ o₂ h₂ with ⟨-, ho₂⟩ | ⟨-, hw₂⟩
      · exact absurd (ho₂ ▸ hn₂) (hnot k₁ o₁ n hne₁ hw₁ hn₁)
      · exact h.apart k₁ o₁ k₂ o₂ n hw₁ hw₂ hn₁ hn₂

theorem unlink_eq_some (h : (w.unlink n).owners k = some o') :
    ∃ o, w.owners k = some o ∧ o' = { o with nodes := o.nodes.erase n } := by
  obtain ⟨o, ho, rfl⟩ := Option.map_eq_some_iff.mp h
  exact ⟨o, ho, rfl⟩

theorem ListsLive.unlink (h : ListsLive w b) (n : Nat) (hn : b n = .live) :
    ListsLive (w.unlink n) (post b (.release n)) := by
  constructor
  · intro m hm
    rw [post, Function.update_of_ne, h.fresh m hm]
    rintro rfl
    rw [h.fresh m hm] at hn
    exact Status.noConfusion hn
  · intro k o' hk
    obtain ⟨o, ho, -⟩ := unlink_eq_some hk
    exact h.bound k o ho
  · intro k o' hk m hm
    obtain ⟨o, ho, rfl⟩ := unlink_eq_some hk
    obtain ⟨hne, hmem⟩ := (h.nodup k o ho).mem_erase_iff.mp hm
    rw [post, Function.update_of_ne hne]
    exact h.live k o ho m hmem
  · intro k o' hk
    obtain ⟨o, ho, rfl⟩ := unlink_eq_some hk
    exact (h.nodup k o ho).erase n
  · intro k₁ o₁ k₂ o₂ m h₁ h₂ hm₁ hm₂
    obtain ⟨o₁, ho₁, rfl⟩ := unlink_eq_some h₁
    obtain ⟨o₂, ho₂, rfl⟩ := unlink_eq_some h₂
    exact h.apart k₁ o₁ k₂ o₂ m ho₁ ho₂ (List.mem_of_mem_erase hm₁) (List.mem_of_mem_erase hm₂)

theorem ListsLive.init (h : ListsLive w b) (cls : OwnerClass) :
    ListsLive { w.setOwner w.nextOwner { cls := cls } with nextOwner := w.nextOwner + 1 } b := by
  have hcases : ∀ k o, Function.update w.owners w.nextOwner (some { cls := cls }) k = some o →
      k = w.nextOwner ∧ o.nodes = [] ∨ w.owners k = some o := by
    intro k o hk
    rw [Function.update_apply] at hk
    split at hk
    · next heq =>
      obtain rfl := Option.some.inj hk
      exact .inl ⟨heq, rfl⟩
    · exact .inr hk
  have hold : ∀ k o n, Function.update w.owners w.nextOwner (some { cls := cls }) k = some o →
      n ∈ o.nodes → w.owners k = some o := by
    intro k o n hk hn
    refine (hcases k o hk).resolve_left fun hnil => ?_
    rw [hnil.2] at hn
    exact List.not_mem_nil hn
  constructor
  · exact h.fresh
  · intro k o hk
    rcases hcases k o hk with ⟨rfl, -⟩ | hk
    · exact Nat.lt_succ_self _
    · exact Nat.lt_succ_of_lt (h.bound k o hk)
  · exact fun k o hk n hn => h.live k o (hold k o n hk hn) n hn
  · intro k o hk
    rcases hcases k o hk with ⟨-, hnil⟩ | hk
    · rw [hnil]
      exact List.nodup_nil
    · exact h.nodup k o hk
  · exact fun k₁ o₁ k₂ o₂ n h₁ h₂ hn₁ hn₂ =>
      h.apart k₁ o₁ k₂ o₂ n (hold k₁ o₁ n h₁ hn₁) (hold k₂ o₂ n h₂ hn₂) hn₁ hn₂

theorem ListsLive.contains (h : ListsLive w b) (hk : w.owners k = some o) (hn : n ∈ o.nodes) :
    w.contains n = true := by
  rw [NodeWorld.contains, List.any_eq_true]
  refine ⟨k, List.mem_range.mpr (h.bound k o hk), ?_⟩
  rw [hk, Option.any_some]
  exact decide_eq_true hn

theorem ListsLive.contains_live (h : ListsLive w b) (hn : w.contains n = true) : b n = .live := by
  obtain ⟨k, -, hk⟩ := List.any_eq_true.mp hn
  obtain ⟨o, ho, hmem⟩ := (Option.any_eq_true _ _).mp hk
  exact h.live k o ho n (of_decide_eq_true hmem)

/-- What stands behind a node is in its list. -/
theorem ListsLive.following (h : ListsLive w b) (hk : w.owners k = some o) (hn : n ∈ o.nodes) :
    ∀ m ∈ w.following n, m ∈ o.nodes := by
  intro m hm
  obtain ⟨k', -, hm⟩ := List.mem_flatMap.mp hm
  cases hk' : w.owners k' with
  | none =>
    rw [hk'] at hm
    exact absurd hm List.not_mem_nil
  | some o' =>
    rw [hk'] at hm
    have hdrop : m ∈ o'.nodes.dropWhile (· ≠ n) := List.mem_of_mem_drop hm
    have hn' : n ∈ o'.nodes := by
      by_contra hnot
      have hnil : o'.nodes.dropWhile (· ≠ n) = [] :=
        List.dropWhile_eq_nil_iff.mpr fun a ha => decide_eq_true (ne_of_mem_of_not_mem ha hnot)
      rw [hnil] at hdrop
      exact List.not_mem_nil hdrop
    obtain rfl := h.apart k o k' o' n hk hk' hn hn'
    obtain rfl := Option.some.inj (hk.symm.trans hk')
    exact (List.dropWhile_sublist _).mem hdrop

/-! ## Objects -/

/-- An object that is up to date points at a node of its owner's list, any other at a released
one. -/
def ObjectHeld (w : NodeWorld) (b : Books Nat) (x : NodeObject) : Prop :=
  ∃ o, w.owners x.owner = some o ∧ x.listing ≤ o.listing ∧
    (w.UpToDate x o → x.node ∈ o.nodes) ∧ (¬w.UpToDate x o → b x.node = .released)

structure NodesTracked (w : NodeWorld) (b : Books Nat) : Prop where
  lists : ListsLive w b
  deleted : ∀ n ∈ w.deleted, b n = .released
  held : ∀ x ∈ w.objs, ObjectHeld w b x

/-- The objects of the owner stay up to date. -/
structure NodeOwner.Keeps (o o' : NodeOwner) : Prop where
  listing : o'.listing = o.listing
  status : o'.status = .freed ↔ o.status = .freed
  nodes : ∀ n ∈ o.nodes, n ∈ o'.nodes

/-- No object of the owner stays up to date. -/
structure NodeOwner.Drops (b' : Books Nat) (o o' : NodeOwner) : Prop where
  listing : o.listing ≤ o'.listing
  outdated : o'.status = .freed ∨ o.listing < o'.listing
  nodes : ∀ n ∈ o.nodes, b' n = .released

theorem NodeOwner.Keeps.upToDate (h : o.Keeps o') (hdel : w'.deleted = w.deleted) :
    w'.UpToDate x o' ↔ w.UpToDate x o := by
  rw [NodeWorld.UpToDate, NodeWorld.UpToDate, Ne, h.status, h.listing, hdel]

theorem ObjectHeld.keep (hx : ObjectHeld w b x) (hdel : w'.deleted = w.deleted)
    (hrel : ∀ n, b n = .released → b' n = .released)
    (hown : ∀ o, w.owners x.owner = some o → ∃ o', w'.owners x.owner = some o' ∧ o.Keeps o') :
    ObjectHeld w' b' x := by
  obtain ⟨o, ho, hle, hcur, hold⟩ := hx
  obtain ⟨o', ho', hkeep⟩ := hown o ho
  refine ⟨o', ho', hkeep.listing ▸ hle, fun h => ?_, fun h => ?_⟩
  · exact hkeep.nodes _ (hcur ((hkeep.upToDate hdel).mp h))
  · exact hrel _ (hold fun hc => h ((hkeep.upToDate hdel).mpr hc))

theorem ObjectHeld.drop (hx : ObjectHeld w b x) (hrel : ∀ n, b n = .released → b' n = .released)
    (hown : ∀ o, w.owners x.owner = some o → ∃ o', w'.owners x.owner = some o' ∧ o.Drops b' o') :
    ObjectHeld w' b' x := by
  obtain ⟨o, ho, hle, hcur, hold⟩ := hx
  obtain ⟨o', ho', hdrop⟩ := hown o ho
  refine ⟨o', ho', hle.trans hdrop.listing, fun h => ?_, fun _ => ?_⟩
  · rcases hdrop.outdated with hfreed | hlt
    · exact absurd hfreed h.1
    · exact absurd h.2.2 (Nat.ne_of_lt (Nat.lt_of_le_of_lt hle hlt))
  · by_cases h : w.UpToDate x o
    · exact hdrop.nodes _ (hcur h)
    · exact hrel _ (hold h)

theorem NodeOwner.Keeps.refl (o : NodeOwner) : o.Keeps o :=
  ⟨rfl, Iff.rfl, fun _ h => h⟩

/-- **An owner changes**: its objects stay up to date, or none of them does. -/
theorem NodesTracked.setOwner (h : NodesTracked w b) (hk : w.owners k = some o)
    (hlists : ListsLive { w.setOwner k o' with next := m } b')
    (hrel : ∀ n, b n = .released → b' n = .released) (ho : o.Keeps o' ∨ o.Drops b' o') :
    NodesTracked { w.setOwner k o' with next := m } b' := by
  refine ⟨hlists, fun n hn => hrel n (h.deleted n hn), fun x hx => ?_⟩
  by_cases hxk : x.owner = k
  · subst hxk
    have hown : ∀ o₁, w.owners x.owner = some o₁ → o₁ = o := fun o₁ h₁ =>
      Option.some.inj (h₁.symm.trans hk)
    rcases ho with hkeep | hdrop
    · refine (h.held x hx).keep rfl hrel fun o₁ h₁ => ?_
      exact ⟨o', setOwner_self .., hown o₁ h₁ ▸ hkeep⟩
    · refine (h.held x hx).drop hrel fun o₁ h₁ => ?_
      exact ⟨o', setOwner_self .., hown o₁ h₁ ▸ hdrop⟩
  · refine (h.held x hx).keep rfl hrel fun o₁ h₁ => ⟨o₁, ?_, .refl o₁⟩
    exact (Function.update_of_ne hxk ..).trans h₁

/-- Objects are made for nodes of a list. -/
theorem NodesTracked.wrap (h : NodesTracked w b) (hk : w.owners k = some o)
    (hstatus : o.status ≠ .freed) (cls : OwnerClass) {ns : List Nat} (hns : ∀ n ∈ ns, n ∈ o.nodes) :
    NodesTracked (w.wrap cls k o.listing ns) b := by
  refine ⟨⟨h.lists.fresh, h.lists.bound, h.lists.live, h.lists.nodup, h.lists.apart⟩, h.deleted, ?_⟩
  refine List.forall_mem_append.mpr ⟨h.held, fun x hx => ?_⟩
  obtain ⟨n, hn, rfl⟩ := List.mem_map.mp hx
  refine ⟨o, hk, Nat.le_refl _, fun _ => hns n hn, fun hold => ?_⟩
  refine absurd ⟨hstatus, fun hdel => ?_, rfl⟩ hold
  have hlive := h.lists.live k o hk n (hns n hn)
  rw [h.deleted n hdel] at hlive
  exact Status.noConfusion hlive

theorem NodesTracked.unlink (h : NodesTracked w b) (hn : b n = .live) :
    NodesTracked { w.unlink n with deleted := n :: w.deleted } (post b (.release n)) := by
  have hlists := h.lists.unlink n hn
  have hrel : ∀ m, b m = .released → post b (.release n) m = .released := by
    intro m hm
    rw [post, Function.update_apply]
    split
    · rfl
    · exact hm
  refine ⟨⟨hlists.fresh, hlists.bound, hlists.live, hlists.nodup, hlists.apart⟩, ?_, ?_⟩
  · exact List.forall_mem_cons.mpr ⟨Function.update_self .., fun m hm => hrel m (h.deleted m hm)⟩
  · intro x hx
    obtain ⟨o, ho, hle, hcur, hold⟩ := h.held x hx
    refine ⟨{ o with nodes := o.nodes.erase n }, ?_, hle, fun hx' => ?_, fun hx' => ?_⟩
    · exact congrArg (Option.map _) ho
    · obtain ⟨hstatus, hdel, hlisting⟩ := hx'
      obtain ⟨hne, hdel⟩ := List.ne_and_not_mem_of_not_mem_cons hdel
      exact ((h.lists.nodup _ o ho).mem_erase_iff).mpr ⟨hne, hcur ⟨hstatus, hdel, hlisting⟩⟩
    · by_cases hne : x.node = n
      · rw [hne]
        exact Function.update_self ..
      · refine hrel _ (hold fun hc => hx' ⟨hc.1, ?_, hc.2.2⟩)
        exact List.not_mem_cons_of_ne_of_not_mem hne hc.2.1

theorem NodesTracked.init (h : NodesTracked w b) (cls : OwnerClass) :
    NodesTracked { w.setOwner w.nextOwner { cls := cls } with nextOwner := w.nextOwner + 1 } b := by
  refine ⟨h.lists.init cls, h.deleted, fun x hx => ?_⟩
  refine (h.held x hx).keep rfl (fun _ hn => hn) fun o ho => ⟨o, ?_, .refl o⟩
  exact (Function.update_of_ne (Nat.ne_of_lt (h.lists.bound _ o ho)) ..).trans ho

/-- An object that is up to date points at a live node of its owner's list. -/
theorem NodesTracked.current (h : NodesTracked w b) (hx : w.objs[i]? = some x)
    (hcur : w.Current i) :
    ∃ o, w.owners x.owner = some o ∧ o.status ≠ .freed ∧ x.listing = o.listing ∧
      x.node ∈ o.nodes := by
  obtain ⟨o, ho, -, hnode, -⟩ := h.held x (List.mem_of_getElem? hx)
  have hup : w.UpToDate x o := hcur x hx o ho
  exact ⟨o, ho, hup.1, hup.2.2, hnode hup⟩

/-- Any other object points at a released one. -/
theorem NodesTracked.outdated (h : NodesTracked w b) (hcur : ¬w.Current i) :
    ∃ x, w.objs[i]? = some x ∧ b x.node = .released := by
  simp only [NodeWorld.Current, not_forall, Option.mem_def] at hcur
  obtain ⟨x, hx, o, ho, hup⟩ := hcur
  obtain ⟨o', ho', -, -, hold⟩ := h.held x (List.mem_of_getElem? hx)
  obtain rfl := Option.some.inj (ho.symm.trans ho')
  exact ⟨x, hx, hold hup⟩

/-! ## Lists that grow and lists that are freed -/

theorem mem_newNodes (w : NodeWorld) (count : Nat) :
    n ∈ w.newNodes count ↔ w.next ≤ n ∧ n < w.next + count :=
  List.mem_range'_1

/-- **A list is renewed**: some of its nodes are released, and new ones are made behind the
others. -/
theorem ListsLive.renew (h : ListsLive w b) (hk : w.owners k = some o) {kept dropped : List Nat}
    (hsplit : o.nodes = kept ++ dropped) (o' : NodeOwner) (count : Nat)
    (hnodes : o'.nodes = kept ++ w.newNodes count) :
    Sound noOwners b (dropped.map .release ++ (w.newNodes count).map .acquire) ∧
      ListsLive { w.setOwner k o' with next := w.next + count }
        (books b (dropped.map .release ++ (w.newNodes count).map .acquire)) := by
  have hnew : ∀ n, n ∈ w.newNodes count ↔ w.next ≤ n ∧ n < w.next + count :=
    fun n => mem_newNodes w count
  have hlt : ∀ n ∈ o.nodes, n < w.next := fun n hn => h.lt_next hk hn
  have hold : ∀ n, n ∈ o.nodes ↔ n ∈ kept ∨ n ∈ dropped := fun n => by rw [hsplit, List.mem_append]
  have hnodup := h.nodup k o hk
  rw [hsplit, List.nodup_append'] at hnodup
  obtain ⟨hkept, hdropped, hdisjoint⟩ := hnodup
  have hbooks : ∀ n, books b (dropped.map .release ++ (w.newNodes count).map .acquire) n =
      if n ∈ w.newNodes count then .live else if n ∈ dropped then .released else b n := by
    intro n
    rw [books_append, books_map_acquire, books_map_release]
  constructor
  · refine sound_append.mpr ⟨sound_map_release hdropped fun n hn => ?_, ?_⟩
    · exact h.live k o hk n ((hold n).mpr (.inr hn))
    · refine sound_map_acquire List.nodup_range' fun n hn => ?_
      rw [books_map_release, if_neg fun hd => ?_, h.fresh n ((hnew n).mp hn).1]
      exact absurd (hlt n ((hold n).mpr (.inr hd))) (Nat.not_lt.mpr ((hnew n).mp hn).1)
  · refine h.setOwner hk ?_ ?_ ?_ ?_ ?_
    · intro n hn
      rw [hbooks, if_neg fun hmem => ?_, if_neg fun hd => ?_, h.fresh n (by omega)]
      · exact absurd (hlt n ((hold n).mpr (.inr hd))) (by omega)
      · exact absurd ((hnew n).mp hmem).2 (Nat.not_lt.mpr hn)
    · intro n hn
      rw [hnodes, List.mem_append] at hn
      rw [hbooks]
      by_cases hmem : n ∈ w.newNodes count
      · rw [if_pos hmem]
      · have hn := hn.resolve_right hmem
        rw [if_neg hmem, if_neg fun hd => List.disjoint_left.mp hdisjoint hn hd]
        exact h.live k o hk n ((hold n).mpr (.inl hn))
    · rw [hnodes, List.nodup_append']
      refine ⟨hkept, List.nodup_range', List.disjoint_left.mpr fun n hn hmem => ?_⟩
      exact absurd (hlt n ((hold n).mpr (.inl hn))) (Nat.not_lt.mpr ((hnew n).mp hmem).1)
    · intro n hn
      rw [hnodes, List.mem_append] at hn
      exact hn.imp (fun hn => (hold n).mpr (.inl hn)) fun hmem => ((hnew n).mp hmem).1
    · intro n hnot hnlt
      rw [hbooks, if_neg fun hmem => ?_, if_neg fun hd => hnot ((hold n).mpr (.inr hd))]
      exact absurd ((hnew n).mp hmem).1 (Nat.not_le.mpr hnlt)

theorem NodesTracked.extend (h : NodesTracked w b) (hk : w.owners k = some o) (count : Nat) :
    Sound noOwners b ((w.newNodes count).map .acquire) ∧
      NodesTracked (w.extend k o count) (books b ((w.newNodes count).map .acquire)) := by
  obtain ⟨hsound, hlists⟩ := h.lists.renew hk (List.append_nil _).symm
    { o with nodes := o.nodes ++ w.newNodes count } count rfl
  refine ⟨hsound,
    h.setOwner hk hlists (fun n hn => hsound.released_stays hn) (.inl ⟨rfl, Iff.rfl, ?_⟩)⟩
  exact fun n hn => List.mem_append_left _ hn

/-- Nodes that are released and not made again are released in the end. -/
theorem ListsLive.released (h : ListsLive w b) (hk : w.owners k = some o) (count : Nat) :
    ∀ n ∈ o.nodes, books b (o.nodes.map .release ++ (w.newNodes count).map .acquire) n =
    .released := by
  intro n hn
  rw [books_append, books_map_acquire, books_map_release, if_pos hn, if_neg fun hmem => ?_]
  exact absurd ((mem_newNodes w count).mp hmem).1 (Nat.not_le.mpr (h.lt_next hk hn))

/-- The list is freed, and another one is made. -/
theorem NodesTracked.relist (h : NodesTracked w b) (hk : w.owners k = some o) (count : Nat) :
    Sound noOwners b (o.nodes.map .release ++ (w.newNodes count).map .acquire) ∧
      NodesTracked (w.extend k { o with nodes := [], listing := o.listing + 1 } count)
        (books b (o.nodes.map .release ++ (w.newNodes count).map .acquire)) := by
  obtain ⟨hsound, hlists⟩ := h.lists.renew hk (List.nil_append _).symm
    { o with nodes := [] ++ w.newNodes count, listing := o.listing + 1 } count rfl
  refine ⟨hsound, h.setOwner hk hlists (fun n hn => hsound.released_stays hn) (.inr ⟨?_, ?_, ?_⟩)⟩
  · exact Nat.le_succ _
  · exact .inr (Nat.lt_succ_self _)
  · exact h.lists.released hk count

theorem NodesTracked.free (h : NodesTracked w b) (hk : w.owners k = some o) :
    Sound noOwners b (o.nodes.map .release) ∧
      NodesTracked (w.setOwner k { o with nodes := [], status := .freed })
        (books b (o.nodes.map .release)) := by
  have hrenew := h.lists.renew hk (List.nil_append _).symm
    { o with nodes := [], status := .freed } 0 rfl
  have hreleased := h.lists.released hk 0
  have hnone : (w.newNodes 0).map Event.acquire = [] := rfl
  rw [hnone, List.append_nil] at hrenew hreleased
  obtain ⟨hsound, hlists⟩ := hrenew
  refine ⟨hsound, h.setOwner hk hlists (fun n hn => hsound.released_stays hn) (.inr ⟨?_, ?_, ?_⟩)⟩
  · exact Nat.le_refl _
  · exact .inl rfl
  · exact hreleased

/-- What an operation changes without the list. -/
theorem NodesTracked.relabel (h : NodesTracked w b) (hk : w.owners k = some o)
    (hnodes : o'.nodes = o.nodes) (hlisting : o'.listing = o.listing)
    (hstatus : o'.status = .freed ↔ o.status = .freed) : NodesTracked (w.setOwner k o') b := by
  refine h.setOwner (m := w.next) hk ?_ (fun _ hn => hn) (.inl ⟨hlisting, hstatus, ?_⟩)
  · refine h.lists.setOwner hk h.lists.fresh ?_ ?_ ?_ fun _ _ _ => rfl
    · rw [hnodes]
      exact h.lists.live k o hk
    · rw [hnodes]
      exact h.lists.nodup k o hk
    · rw [hnodes]
      exact fun n hn => .inl hn
  · rw [hnodes]
    exact fun n hn => hn

/-! ## Steps -/

theorem on_eq_some {cls : OwnerClass} {f : NodeOwner → Option NodeWorld × List (Event Nat)}
    {r : Option NodeWorld × List (Event Nat)} (h : w.on k cls f = some r) :
    ∃ o, w.owners k = some o ∧ o.status ≠ .freed ∧ f o = r := by
  rw [NodeWorld.on] at h
  cases hk : w.owners k with
  | none =>
    rw [hk] at h
    cases h
  | some o =>
    rw [hk] at h
    obtain ⟨⟨-, hstatus⟩, h⟩ := Option.ite_none_right_eq_some.mp h
    refine ⟨o, rfl, ?_, Option.some.inj h⟩
    rw [hstatus]
    exact OwnerStatus.noConfusion

theorem object_eq_some {cls : OwnerClass} (h : w.object i cls = some x) : w.objs[i]? = some x :=
  (Option.filter_eq_some_iff.mp h).1

/-- The ledger accepts the events, and the state that they lead to is tracked. -/
def Answered (b : Books Nat) (r : Option NodeWorld × List (Event Nat)) : Prop :=
  ∃ w, r.1 = some w ∧ Sound noOwners b r.2 ∧ NodesTracked w (books b r.2)

theorem NodesTracked.answered (h : NodesTracked w b) : Answered b (some w, []) :=
  ⟨w, rfl, trivial, h⟩

/-- A node that is passed is live if its object is up to date. -/
theorem NodesTracked.pass (h : NodesTracked w b) (hx : w.objs[i]? = some x) (hcur : w.Current i)
    (hes : ∀ o, w.owners x.owner = some o → o.status ≠ .freed → x.listing = o.listing →
      x.node ∈ o.nodes → Sound noOwners b es ∧ NodesTracked w' (books b es)) :
    Answered b (w.pass x.node w' es) := by
  obtain ⟨o, ho, hstatus, hlisting, hnode⟩ := h.current hx hcur
  obtain ⟨hsound, htracked⟩ := hes o ho hstatus hlisting hnode
  rw [NodeWorld.pass, if_pos (h.lists.contains ho hnode)]
  exact ⟨w', rfl, ⟨usable_noOwners.mpr (h.lists.live _ o ho _ hnode), hsound⟩, htracked⟩

/-- `get` makes an object of each node that it comes to. -/
theorem NodesTracked.got (h : NodesTracked w b) (hk : w.owners k = some o)
    (hstatus : o.status ≠ .freed) (cls : OwnerClass) {ns : List Nat} (hns : ∀ n ∈ ns, n ∈ o.nodes) :
    Sound noOwners b (ns.map .call) ∧
      NodesTracked (w.wrap cls k o.listing ns) (books b (ns.map .call)) := by
  obtain ⟨hsound, hbooks⟩ := sound_map_call fun n hn =>
    usable_noOwners.mpr (h.lists.live k o hk n (hns n hn))
  rw [hbooks]
  exact ⟨hsound, h.wrap hk hstatus cls hns⟩

def NodesRel : Option NodeWorld → Books Nat → Prop
  | some w, b => NodesTracked w b
  | none, _ => False

theorem Answered.refine {r : Option NodeWorld × List (Event Nat)} (h : Answered b r) :
    ∃ b', (spec noOwners).accepts b r.2 b' ∧ NodesRel r.1 b' := by
  obtain ⟨w, hw, hsound, htracked⟩ := h
  refine ⟨_, ⟨hsound, rfl⟩, ?_⟩
  rw [hw]
  exact htracked

theorem extend_owner (w : NodeWorld) (k : Nat) (o : NodeOwner) (count : Nat) :
    (w.extend k o count).owners k = some { o with nodes := o.nodes ++ w.newNodes count } :=
  setOwner_self ..

/-- The steps, apart from those that are not possible. -/
theorem answered_of_step {op : NodeOp} {r : Option NodeWorld × List (Event Nat)}
    (h : NodesTracked w b) (hg : op.UsesCurrent (some w)) (hs : nodeStep (some w) op = some r) :
    Answered b r := by
  cases op with
  | init cls =>
    obtain rfl := Option.some.inj hs
    exact (h.init cls).answered
  | addc k rc =>
    obtain ⟨o, hk, hstatus, rfl⟩ := on_eq_some hs
    split
    · obtain ⟨hsound, htracked⟩ := h.extend hk 1
      refine ⟨_, rfl, hsound, ?_⟩
      exact htracked.wrap (extend_owner w k o 1) hstatus .knownHost fun n hn =>
        List.mem_append_right _ hn
    · exact h.answered
  | readline k added =>
    obtain ⟨o, hk, -, rfl⟩ := on_eq_some hs
    exact ⟨_, rfl, h.extend hk added⟩
  | readfile k added =>
    obtain ⟨o, hk, -, rfl⟩ := on_eq_some hs
    exact ⟨_, rfl, h.extend hk added⟩
  | checkp k matched =>
    obtain ⟨o, hk, hstatus, rfl⟩ := on_eq_some hs
    refine (h.wrap hk hstatus .knownHost fun n hn => ?_).answered
    obtain ⟨place, -, hplace⟩ := Option.bind_eq_some_iff.mp (Option.mem_toList.mp hn)
    exact List.mem_of_getElem? hplace
  | get k prev =>
    cases prev with
    | none =>
      obtain ⟨o, hk, hstatus, rfl⟩ := on_eq_some hs
      exact ⟨_, rfl, h.got hk hstatus .knownHost fun n hn => hn⟩
    | some i =>
      obtain ⟨x, hx, hs⟩ := Option.bind_eq_some_iff.mp hs
      obtain ⟨-, -, -, rfl⟩ := on_eq_some hs
      refine h.pass (object_eq_some hx) (hg i rfl) fun o ho hstatus hlisting hnode => ?_
      rw [hlisting]
      exact h.got ho hstatus .knownHost (h.lists.following ho hnode)
  | delete k i =>
    obtain ⟨x, hx, hs⟩ := Option.bind_eq_some_iff.mp hs
    obtain ⟨-, -, -, rfl⟩ := on_eq_some hs
    refine h.pass (object_eq_some hx) (hg i rfl) fun o ho _ _ hnode => ?_
    have hlive := h.lists.live _ o ho _ hnode
    exact ⟨⟨usable_noOwners.mpr hlive, trivial⟩, h.unlink hlive⟩
  | writeline k i =>
    obtain ⟨x, hx, hs⟩ := Option.bind_eq_some_iff.mp hs
    obtain ⟨-, -, -, rfl⟩ := on_eq_some hs
    exact h.pass (object_eq_some hx) (hg i rfl) fun _ _ _ _ _ => ⟨trivial, h⟩
  | getIdentities k rc count =>
    obtain ⟨o, hk, hstatus, rfl⟩ := on_eq_some hs
    obtain ⟨hsound, htracked⟩ := h.relist hk count
    split
    · obtain ⟨hcalls, hwrapped⟩ := htracked.got (extend_owner ..) hstatus .agent
        fun n (hn : n ∈ w.newNodes count) => hn
      refine ⟨_, rfl, sound_append.mpr ⟨hsound, hcalls⟩, ?_⟩
      rw [books_append]
      exact hwrapped
    · exact ⟨_, rfl, hsound, htracked⟩
  | userauth k i args =>
    obtain ⟨x, hx, hs⟩ := Option.bind_eq_some_iff.mp hs
    obtain ⟨-, -, -, rfl⟩ := on_eq_some hs
    cases args with
    | error exc => exact h.answered
    | ok u => exact h.pass (object_eq_some hx) (hg i rfl) fun _ _ _ _ _ => ⟨trivial, h⟩
  | property i =>
    obtain ⟨x, hx, rfl⟩ := Option.map_eq_some_iff.mp hs
    exact h.pass hx (hg i rfl) fun _ _ _ _ _ => ⟨trivial, h⟩
  | clear k =>
    obtain ⟨o, hk, rfl⟩ := Option.map_eq_some_iff.mp hs
    exact NodesTracked.answered (h.relabel hk rfl rfl Iff.rfl)
  | destroy k =>
    obtain ⟨o, hk, hs⟩ := Option.bind_eq_some_iff.mp hs
    obtain ⟨hpresent, hs⟩ := Option.ite_none_right_eq_some.mp hs
    split at hs
    · obtain rfl := Option.some.inj hs
      exact ⟨_, rfl, h.free hk⟩
    · obtain rfl := Option.some.inj hs
      refine NodesTracked.answered (h.relabel hk rfl rfl ?_)
      rw [hpresent]
      exact iff_of_false OwnerStatus.noConfusion OwnerStatus.noConfusion

/-- **One step** that uses an object that is up to date refines the ledger. -/
theorem node_refines : Refines nodeStep NodeOp.UsesCurrent (spec noOwners) NodesRel := by
  intro s op s' es b hR hg hs
  cases s with
  | none => exact hR.elim
  | some w => exact (answered_of_step hR hg hs).refine

/-- A method that takes an object and passes its node. -/
theorem passes_of_object {cls cls' : OwnerClass} {f : NodeObject → NodeWorld}
    {g : NodeObject → List (Event Nat)} {r : Option NodeWorld × List (Event Nat)}
    (hx : w.objs[i]? = some x)
    (hs : ((w.object i cls).bind fun y => w.on k cls' fun _ => w.pass y.node (f y) (g y)) =
      some r) :
    r = w.pass x.node (f x) (g x) := by
  obtain ⟨y, hy, hs⟩ := Option.bind_eq_some_iff.mp hs
  obtain ⟨-, -, -, rfl⟩ := on_eq_some hs
  obtain rfl := Option.some.inj ((object_eq_some hy).symm.trans hx)
  rfl

theorem pass_events (w : NodeWorld) (n : Nat) (w' : NodeWorld) (es : List (Event Nat)) :
    ∃ fs, (w.pass n w' es).2 = .call n :: fs := by
  rw [NodeWorld.pass]
  split
  · exact ⟨es, rfl⟩
  · exact ⟨[], rfl⟩

/-- A step that uses another object passes a released node first. -/
theorem passes_of_step {op : NodeOp} {r : Option NodeWorld × List (Event Nat)}
    (h : NodesTracked w b) (hg : ¬op.UsesCurrent (some w)) (hs : nodeStep (some w) op = some r) :
    ∃ (x : NodeObject) (w' : NodeWorld) (es : List (Event Nat)),
      b x.node = .released ∧ r = w.pass x.node w' es := by
  have huse : ∃ i, op.uses = some i ∧ ¬w.Current i := by
    simpa only [NodeOp.UsesCurrent, Option.mem_def, not_forall, exists_prop] using hg
  obtain ⟨i, hi, hcur⟩ := huse
  obtain ⟨x, hx, hreleased⟩ := h.outdated hcur
  suffices ∃ w' es, r = w.pass x.node w' es by
    obtain ⟨w', es, rfl⟩ := this
    exact ⟨x, w', es, hreleased, rfl⟩
  cases op with
  | get k prev =>
    obtain rfl : prev = some i := hi
    exact ⟨_, _, passes_of_object hx hs⟩
  | delete k j =>
    obtain rfl := Option.some.inj hi
    exact ⟨_, _, passes_of_object hx hs⟩
  | writeline k j =>
    obtain rfl := Option.some.inj hi
    exact ⟨_, _, passes_of_object hx hs⟩
  | userauth k j args =>
    cases args with
    | error exc => cases hi
    | ok u =>
      obtain rfl := Option.some.inj hi
      exact ⟨_, _, passes_of_object hx hs⟩
  | property j =>
    obtain rfl := Option.some.inj hi
    obtain ⟨y, hy, rfl⟩ := Option.map_eq_some_iff.mp hs
    obtain rfl := Option.some.inj (hy.symm.trans hx)
    exact ⟨_, _, rfl⟩
  | init | addc | readline | readfile | checkp | getIdentities | clear | destroy => cases hi

theorem outdated_of_step {op : NodeOp} {r : Option NodeWorld × List (Event Nat)}
    (h : NodesTracked w b) (hg : ¬op.UsesCurrent (some w)) (hs : nodeStep (some w) op = some r) :
    ∃ n fs, r.2 = .call n :: fs ∧ b n = .released := by
  obtain ⟨x, w', es, hreleased, rfl⟩ := passes_of_step h hg hs
  obtain ⟨fs, hfs⟩ := pass_events w x.node w' es
  exact ⟨x.node, fs, hfs, hreleased⟩

/-- After such a step nothing is defined. -/
theorem none_of_step {op : NodeOp} {r : Option NodeWorld × List (Event Nat)}
    (h : NodesTracked w b) (hg : ¬op.UsesCurrent (some w)) (hs : nodeStep (some w) op = some r) :
    r.1 = none := by
  obtain ⟨x, w', es, hreleased, rfl⟩ := passes_of_step h hg hs
  rw [NodeWorld.pass, if_neg fun hcontains => ?_]
  rw [h.lists.contains_live hcontains] at hreleased
  exact Status.noConfusion hreleased

/-! ## Runs -/

theorem tracked_start : NodesTracked .start fun _ => .fresh where
  lists := ⟨fun _ _ => rfl, fun _ _ h => (Option.some_ne_none _ h.symm).elim,
    fun _ _ h => (Option.some_ne_none _ h.symm).elim,
    fun _ _ h => (Option.some_ne_none _ h.symm).elim,
    fun _ _ _ _ _ h => (Option.some_ne_none _ h.symm).elim⟩
  deleted _ hn := absurd hn List.not_mem_nil
  held _ hx := absurd hx List.not_mem_nil

/-- Whatever is reached by a run, while that is defined, is tracked by some books. -/
theorem tracked_of_run {ops : List NodeOp} {es : List (Event Nat)}
    (hrun : Runs nodeStep (fun _ _ => True) (some .start) ops es (some w)) :
    ∃ b, NodesTracked w b := by
  refine (hrun.induction (fun s => ∀ w, s = some w → ∃ b, NodesTracked w b) (fun _ => True)
    ?_ ?_).1 w rfl
  · intro s op s' es hinv _ hs
    refine ⟨?_, fun _ _ => trivial⟩
    rintro w' rfl
    cases s with
    | none => cases hs
    | some w =>
      obtain ⟨b, htracked⟩ := hinv w rfl
      by_cases hg : op.UsesCurrent (some w)
      · obtain ⟨w'', hw, -, htracked'⟩ := answered_of_step htracked hg hs
        obtain rfl := Option.some.inj hw
        exact ⟨_, htracked'⟩
      · cases none_of_step htracked hg hs
  · intro w hw
    obtain rfl := Option.some.inj hw
    exact ⟨_, tracked_start⟩

/-- **Nodes are used while they are live**, in a run of known hosts and agents, exactly if every
object that is used is up to date. -/
theorem nodes_valid_iff (ops : List NodeOp) (es : List (Event Nat)) (s : Option NodeWorld)
    (hrun : Runs nodeStep (fun _ _ => True) (some .start) ops es s) :
    Valid es ↔ Runs nodeStep NodeOp.UsesCurrent (some .start) ops es s := by
  refine valid_iff_guarded node_refines ?_ hrun tracked_start fun _ => rfl
  intro s op s' es b hR hs hg
  cases s with
  | none => exact hR.elim
  | some w => exact outdated_of_step hR hg hs

/-- An entry is added, read and deleted, and a key is used before the identities are listed
again. -/
theorem nodes_valid_iff_example :
    ∃ es s, Runs nodeStep NodeOp.UsesCurrent (some .start)
      [.init .knownHost, .addc 0 0, .property 0, .delete 0 0, .init .agent, .getIdentities 1 0 1,
        .userauth 1 1 (.ok ()), .getIdentities 1 0 1, .property 2, .destroy 1] es s ∧
      .release 2 ∈ es ∧ Valid es := by
  have hguarded : ∃ es s, Runs nodeStep NodeOp.UsesCurrent (some .start)
      [.init .knownHost, .addc 0 0, .property 0, .delete 0 0, .init .agent, .getIdentities 1 0 1,
        .userauth 1 1 (.ok ()), .getIdentities 1 0 1, .property 2, .destroy 1] es s ∧
      .release 2 ∈ es :=
    ⟨_, _, .cons (by decide) rfl <| .cons (by decide) rfl <| .cons (by decide) rfl <|
      .cons (by decide) rfl <| .cons (by decide) rfl <| .cons (by decide) rfl <|
      .cons (by decide) rfl <| .cons (by decide) rfl <| .cons (by decide) rfl <|
      .cons (by decide) rfl <| .nil _, by decide⟩
  obtain ⟨es, s, hrun, hmem⟩ := hguarded
  have hfree := hrun.mono (fun _ => True) (fun _ _ _ _ _ _ _ => ⟨trivial, trivial⟩) trivial
  exact ⟨es, s, hrun, hmem, (nodes_valid_iff _ _ _ hfree).mpr hrun⟩

/-- The name of an entry is read that was deleted through another object, and a key is used that is
not listed any more. -/
theorem nodes_not_valid :
    (∃ es s, Runs nodeStep (fun _ _ => True) (some .start)
      [.init .knownHost, .addc 0 0, .get 0 none, .delete 0 1, .property 0] es s ∧ ¬Valid es) ∧
    ∃ es s, Runs nodeStep (fun _ _ => True) (some .start)
      [.init .agent, .getIdentities 0 0 1, .getIdentities 0 0 1, .userauth 0 0 (.ok ())] es s ∧
        ¬Valid es := by
  constructor
  · refine ⟨_, _, runs_of_exec rfl, fun h => ?_⟩
    exact absurd (h [.acquire 0, .call 0, .call 0, .release 0] (.call 0) [] rfl 0 (.inl rfl)).2
      (by decide)
  · refine ⟨_, _, runs_of_exec rfl, fun h => ?_⟩
    exact absurd (h [.acquire 0, .call 0, .release 0, .acquire 1, .call 1] (.call 0) [] rfl 0
      (.inl rfl)).2
      (by decide)

end Ssh2Python
