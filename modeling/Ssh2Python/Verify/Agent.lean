import Mathlib.Data.List.Perm.Basic
import Ssh2Python.Agent

/-!
# Every agent is freed once

The native agents are objects of the ledger, acquired by `libssh2_agent_init` and released by
`libssh2_agent_free`. What is live is what the `Agent` objects hold (`AgentsHeld`); `agent_refines`
is the step lemma, and `agents_managed` what it means for a run of a session and its agents.
-/

namespace Ssh2Python

open Lib.Run Lib.Ledger

/-! ## The calls of one method -/

/-- All calls pass the agent. -/
def OnlyUses (agent : AgentPtr) (calls : List AgentCall) : Prop :=
  ∀ c ∈ calls, ∃ fn, c = .use fn agent

theorem OnlyUses.cons {agent : AgentPtr} {calls : List AgentCall} (fn : AgentFn)
    (h : OnlyUses agent calls) : OnlyUses agent (.use fn agent :: calls) := by
  intro c hc
  rcases List.mem_cons.mp hc with rfl | hc
  · exact ⟨fn, rfl⟩
  · exact h c hc

theorem onlyUses_nil (agent : AgentPtr) : OnlyUses agent [] :=
  fun _ hc => absurd hc List.not_mem_nil

theorem OnlyUses.log {agent : AgentPtr} {calls : List AgentCall} (h : OnlyUses agent calls) :
    calls.flatMap AgentCall.event = List.replicate calls.length (.call agent) := by
  induction calls with
  | nil => rfl
  | cons c cs ih =>
    obtain ⟨fn, rfl⟩ := h c List.mem_cons_self
    rw [List.flatMap_cons, ih fun d hd => h d (List.mem_cons_of_mem _ hd)]
    rfl

/-- A function that is still running has only passed the agent; one that has ended has freed it with
its last call. -/
def FreesAtEnd (agent : AgentPtr) (e : Effect AgentCall (Option Int)) : Prop :=
  ∃ uses, OnlyUses agent uses ∧
    (e.calls = uses ∧ e.result = .ok none ∨
      e.calls = uses ++ [.free agent] ∧ e.result ≠ .ok none)

theorem FreesAtEnd.use {agent : AgentPtr} {e : Effect AgentCall (Option Int)} (fn : AgentFn)
    (h : FreesAtEnd agent e) : FreesAtEnd agent ⟨.use fn agent :: e.calls, e.result⟩ := by
  obtain ⟨uses, huses, hend⟩ := h
  refine ⟨.use fn agent :: uses, huses.cons fn, ?_⟩
  rcases hend with ⟨hc, hr⟩ | ⟨hc, hr⟩
  · exact .inl ⟨by rw [hc], hr⟩
  · exact .inr ⟨by rw [hc, List.cons_append], hr⟩

/-- `clear_agent` at the end of the function. -/
theorem freesAtEnd_clear {agent : AgentPtr} {result : Except PyExc (Option Int)}
    (hresult : result ≠ .ok none) :
    FreesAtEnd agent ⟨[.use .disconnect agent, .free agent], result⟩ :=
  ⟨[.use .disconnect agent], (onlyUses_nil agent).cons _, .inr ⟨rfl, hresult⟩⟩

theorem authIdentity_end (username : PyBytes) (agent : AgentPtr) :
    authIdentity username agent 1 =
      ⟨[.use .getIdentity agent, .use .disconnect agent, .free agent], .ok 1⟩ := rfl

theorem authIdentity_failed {rc : Int} (username : PyBytes) (agent : AgentPtr) (hrc : rc < 0) :
    authIdentity username agent rc =
      ⟨[.use .getIdentity agent, .use .disconnect agent, .free agent],
        .error (userError .agentGetIdentityError "Failure getting identity for user %s from agent"
          username)⟩ := by
  rw [authIdentity, if_neg (by omega), if_pos hrc]
  rfl

theorem authIdentity_found {rc : Int} (username : PyBytes) (agent : AgentPtr) (hrc : 0 ≤ rc)
    (hend : rc ≠ 1) : authIdentity username agent rc = ⟨[.use .getIdentity agent], .ok rc⟩ := by
  rw [authIdentity, if_neg hend, if_neg (by omega)]
  rfl

theorem agentAuthLoop_frees (username : PyBytes) (agent : AgentPtr) (rounds : List (Int × Int)) :
    FreesAtEnd agent (agentAuthLoop username agent rounds) := by
  induction rounds with
  | nil => exact ⟨[], onlyUses_nil agent, .inl ⟨rfl, rfl⟩⟩
  | cons round rounds ih =>
    obtain ⟨getRc, authRc⟩ := round
    rw [agentAuthLoop]
    rcases Int.lt_or_le getRc 0 with hneg | hpos
    · rw [authIdentity_failed username agent hneg, Effect.error_bind]
      exact FreesAtEnd.use .getIdentity (freesAtEnd_clear (by nofun))
    · by_cases hend : getRc = 1
      · -- no identity is left: the agent is cleared before the loop raises
        rw [hend, authIdentity_end, Effect.ok_bind, if_pos rfl]
        exact FreesAtEnd.use .getIdentity (freesAtEnd_clear (by nofun))
      · rw [authIdentity_found username agent hpos hend, Effect.ok_bind, if_neg hend]
        refine FreesAtEnd.use .getIdentity (FreesAtEnd.use (.userauth username) ?_)
        by_cases hauth : authRc = 0
        · rw [if_pos hauth]
          exact freesAtEnd_clear (by nofun)
        · rw [if_neg hauth]
          exact ih

theorem agentAuth_frees (username : PyBytes) (agent : AgentPtr) (listRc : Int)
    (rounds : List (Int × Int)) : FreesAtEnd agent (agentAuth username agent listRc rounds) := by
  rw [agentAuth]
  refine FreesAtEnd.use .listIdentities ?_
  by_cases hlist : listRc = 0
  · rw [if_neg (not_not_intro hlist)]
    exact agentAuthLoop_frees username agent rounds
  · rw [if_pos hlist]
    exact freesAtEnd_clear (by nofun)

theorem getIdentitiesLoop_uses (agent : AgentPtr) (n : Nat) (rcs : List Int) :
    OnlyUses agent (getIdentitiesLoop agent n rcs).calls := by
  induction rcs generalizing n with
  | nil => exact onlyUses_nil agent
  | cons rc rcs ih =>
    rw [getIdentitiesLoop, Effect.calls_emit_bind]
    refine OnlyUses.cons .getIdentity ?_
    by_cases hrc : rc = 0
    · rw [if_pos hrc]
      exact ih (n + 1)
    · rw [if_neg hrc]
      exact onlyUses_nil agent

theorem getIdentities_uses (a : Agent) (listRc : Int) (rcs : List Int) :
    OnlyUses a.agent (a.getIdentities listRc rcs).calls := by
  rw [Agent.getIdentities, Effect.calls_emit_bind]
  refine OnlyUses.cons .listIdentities ?_
  by_cases hlist : listRc = 0
  · rw [if_neg (not_not_intro hlist)]
    exact getIdentitiesLoop_uses a.agent 0 rcs
  · rw [if_pos hlist]
    exact onlyUses_nil a.agent

theorem userauth_uses (a : Agent) (username : PyObj) (rc : Int) :
    OnlyUses a.agent (a.userauth username rc).calls := by
  rw [Agent.userauth]
  cases bytesArg username with
  | error exc => exact onlyUses_nil a.agent
  | ok b =>
    rw [Effect.lift_ok_bind, Effect.calls_emit_bind]
    refine OnlyUses.cons (.userauth b) ?_
    split <;> exact onlyUses_nil a.agent

theorem setIdentityPath_uses (a : Agent) (path : PyObj) :
    OnlyUses a.agent (a.setIdentityPath path).calls := by
  rw [Agent.setIdentityPath]
  cases bytesArg path with
  | error exc => exact onlyUses_nil a.agent
  | ok b => exact (onlyUses_nil a.agent).cons (.setIdentityPath b)

/-- A method of `Agent` passes the agent, and only `connect` is not a mere use of it. -/
theorem AgentMethod.event_cases (a : Agent) (m : AgentMethod) :
    OnlyUses a.agent (m.event a).calls ∨ ∃ rc, m = .connect rc := by
  cases m with
  | listIdentities => exact .inl (onlyUses_nil a.agent)
  | getIdentities listRc rcs => exact .inl (getIdentities_uses a listRc rcs)
  | userauth username rc => exact .inl (userauth_uses a username rc)
  | disconnect rc => exact .inl ((onlyUses_nil a.agent).cons .disconnect)
  | connect rc => exact .inr ⟨rc, rfl⟩
  | getIdentityPath path => exact .inl ((onlyUses_nil a.agent).cons .getIdentityPath)
  | setIdentityPath path => exact .inl (setIdentityPath_uses a path)

theorem connect_calls (a : Agent) (rc : Int) : (a.connect rc).calls = [.connect a.agent rc] := by
  rw [Agent.connect, Effect.calls_emit_bind]
  split <;> rfl

/-! ## The log of one method -/

theorem AgentMethod.event_log (a : Agent) (m : AgentMethod) :
    ∃ n, (m.event a).log = List.replicate n (.call a.agent) := by
  rcases m.event_cases a with huses | ⟨rc, rfl⟩
  · exact ⟨_, huses.log⟩
  · refine ⟨1, ?_⟩
    show (a.connect rc).calls.flatMap AgentCall.event = _
    rw [connect_calls]
    rfl

/-- A call of `Session.agent_auth` that allocates an agent and passes it: it frees the agent unless
it is still running. -/
inductive AuthLog (agent : AgentPtr) (e : AgentEvent) : Prop
  | rejected (h : e.log = [])
  | running (n : Nat) (h : e.log = .acquire agent :: List.replicate n (.call agent))
      (hend : e.ending = .suspended)
  | ended (n : Nat)
      (h : e.log = .acquire agent :: (List.replicate n (.call agent) ++ [.release agent]))

theorem initConnectAgent_failed {rc : Int} (native : AgentPtr) (hrc : rc ≠ 0) :
    initConnectAgent native rc =
      ⟨[.init native, .connect native rc, .free native],
        .error { cls := .agentConnectionError, args := [.text "Unable to connect to agent"] }⟩ := by
  rw [initConnectAgent, if_pos hrc]
  rfl

theorem initConnectAgent_connected (k : Nat) :
    initConnectAgent (some k) 0 = ⟨[.init (some k), .connect (some k) 0], .ok (some k)⟩ := rfl

theorem loopEvent_suspended {α : Type} {e : Effect AgentCall (Option α)} (h : e.result = .ok none) :
    e.loopEvent.ending = .suspended := by
  rw [Effect.loopEvent, h]

theorem sessionAgentAuth_rejected {username : PyObj} {exc : PyExc} {native : AgentPtr}
    {connectRc listRc : Int} {rounds : List (Int × Int)} (h : bytesArg username = .error exc) :
    sessionAgentAuth username native connectRc listRc rounds = .raise exc := by
  rw [sessionAgentAuth, h, Effect.lift_error_bind]

theorem sessionAgentAuth_log (username : PyObj) (k : Nat) (connectRc listRc : Int)
    (rounds : List (Int × Int)) :
    AuthLog (some k) (sessionAgentAuth username (some k) connectRc listRc rounds).loopEvent := by
  rw [sessionAgentAuth]
  cases bytesArg username with
  | error exc => exact .rejected rfl
  | ok b =>
    rw [Effect.lift_ok_bind]
    by_cases hconnect : connectRc = 0
    · rw [hconnect, initConnectAgent_connected, Effect.ok_bind]
      obtain ⟨uses, huses, ⟨hcalls, hresult⟩ | ⟨hcalls, -⟩⟩ :=
        agentAuth_frees b (some k) listRc rounds
      · refine .running (uses.length + 1) ?_ (loopEvent_suspended hresult)
        rw [hcalls, Effect.loopEvent, AgentEvent.log, List.flatMap_append, huses.log]
        rfl
      · refine .ended (uses.length + 1) ?_
        rw [hcalls, Effect.loopEvent, AgentEvent.log, List.flatMap_append, List.flatMap_append,
          huses.log]
        rfl
    · rw [initConnectAgent_failed _ hconnect]
      exact .ended 1 rfl

/-! ## One step -/

/-- The live agents are the ones that the objects hold, and every object keeps its session. -/
structure AgentsHeld (w : AgentWorld) (b : Books AgentPtr) : Prop where
  holds : Holds b (w.agents.map (·.agent))
  fresh : ∀ k, w.next ≤ k → b (some k) = .fresh
  linked : ∀ a ∈ w.agents, a.agent ≠ none ∧ a.session = true ∧ w.session = true

/-- Nothing is asked of a program that is still inside a call. -/
def AgentsRel : Option AgentWorld → Books AgentPtr → Prop
  | none, _ => True
  | some w, b => AgentsHeld w b

section

variable {w : AgentWorld} {b : Books AgentPtr} {a : Agent} {i : Nat}

theorem AgentsHeld.skip (h : AgentsHeld w b) (n : Nat) :
    AgentsHeld { w with next := w.next + n } b :=
  ⟨h.holds, fun k hk => h.fresh k (Nat.le_of_add_right_le hk), h.linked⟩

theorem AgentsHeld.next_fresh (h : AgentsHeld w b) : b (some w.next) = .fresh :=
  h.fresh w.next (Nat.le_refl _)

/-- Numbers from the next one but one on stay fresh. -/
theorem AgentsHeld.fresh_post (h : AgentsHeld w b) {e : Event AgentPtr} (he : e.about = some w.next)
    (k : Nat) (hk : w.next + 1 ≤ k) : post b e (some k) = .fresh := by
  rw [post_of_ne, h.fresh k (Nat.le_of_succ_le hk)]
  rw [he]
  intro heq
  rw [Option.some.inj heq] at hk
  exact Nat.lt_irrefl k hk

theorem AgentsHeld.add (h : AgentsHeld w b) (hsession : w.session = true) :
    AgentsHeld { w with agents := w.agents ++ [⟨some w.next, true⟩], next := w.next + 1 }
      (post b (.acquire (some w.next))) where
  holds := by
    rw [List.map_append]
    exact h.holds.acquire h.next_fresh
  fresh := h.fresh_post rfl
  linked := by
    intro a ha
    rcases List.mem_append.mp ha with ha | ha
    · exact h.linked a ha
    · rw [List.mem_singleton.mp ha]
      exact ⟨Option.some_ne_none _, rfl, hsession⟩

theorem AgentsHeld.transient (h : AgentsHeld w b) :
    AgentsHeld { w with next := w.next + 1 }
      (post (post b (.acquire (some w.next))) (.release (some w.next))) where
  holds := h.holds.transient h.next_fresh
  fresh := by
    intro k hk
    rw [post_of_ne, h.fresh_post rfl k hk]
    intro heq
    rw [← Option.some.inj heq] at hk
    exact Nat.lt_irrefl _ hk
  linked := h.linked

theorem AgentsHeld.live (h : AgentsHeld w b) (hi : w.agents[i]? = some a) :
    Usable noOwners b a.agent :=
  usable_noOwners.mpr ((h.holds.live_iff _).mpr
    (List.mem_map_of_mem (List.mem_of_getElem? hi)))

theorem AgentsHeld.dealloc (h : AgentsHeld w b) (hi : w.agents[i]? = some a) :
    AgentsHeld { w with agents := w.agents.eraseIdx i } (post b (.release a.agent)) where
  holds := by
    obtain ⟨hlt, rfl⟩ := List.getElem?_eq_some_iff.mp hi
    have hperm := (List.getElem_cons_eraseIdx_perm hlt).map (·.agent)
    exact (h.holds.perm hperm.symm).release
  fresh := by
    intro k hk
    rw [post_of_ne, h.fresh k hk]
    intro heq
    have hlive := (h.live hi).1
    rw [show a.agent = some k from heq, h.fresh k hk] at hlive
    exact Status.noConfusion hlive
  linked := fun a ha => h.linked a (List.mem_of_mem_eraseIdx ha)

end

/-- The ledger accepts the log of a single call. -/
theorem accepts_event {b b' : Books AgentPtr} {e : AgentEvent} {l : List (Event AgentPtr)}
    (hlog : e.log = l) (hsound : Sound noOwners b l) (hbooks : books b l = b') :
    ((spec noOwners).comap AgentEvent.log).accepts b [e] b' := by
  rw [← hbooks]
  exact accepts_of_log ((List.flatMap_singleton ..).trans hlog) hsound

/-- What an allocated agent is used for, and that it may be freed then. -/
theorem sound_allocated {b : Books AgentPtr} {p : AgentPtr} (hp : b p = .fresh) (n : Nat) :
    Sound noOwners b (.acquire p :: List.replicate n (.call p)) ∧
      books b (.acquire p :: List.replicate n (.call p)) = post b (.acquire p) ∧
      Usable noOwners (post b (.acquire p)) p := by
  have husable : Usable noOwners (post b (.acquire p)) p :=
    usable_noOwners.mpr (Function.update_self ..)
  obtain ⟨hsound, hbooks⟩ := sound_calls husable n
  exact ⟨⟨hp, hsound⟩, hbooks, husable⟩

/-- **`Session.agent_auth`** frees the agent that it allocates, unless its loop goes on. -/
theorem AgentsHeld.agentAuth {w : AgentWorld} {b : Books AgentPtr} {username : PyObj}
    {native : Bool}
    {connectRc listRc : Int} {rounds : List (Int × Int)} {e : AgentEvent} (h : AgentsHeld w b)
    (hg : native = true ∨ ∃ exc, bytesArg username = .error exc)
    (he : e = (sessionAgentAuth username (if native then some w.next else none) connectRc listRc
      rounds).loopEvent) :
    ∃ b', ((spec noOwners).comap AgentEvent.log).accepts b [e] b' ∧
      AgentsRel (if e.ending = .suspended then none else some { w with next := w.next + 1 })
        b' := by
  have hnext {b' : Books AgentPtr} (h' : AgentsHeld { w with next := w.next + 1 } b') :
      AgentsRel (if e.ending = .suspended then none else some { w with next := w.next + 1 })
        b' := by
    split
    · trivial
    · exact h'
  cases native with
  | false =>
    obtain ⟨exc, hexc⟩ := hg.resolve_left Bool.false_ne_true
    have hlog : e.log = [] := by
      rw [he, sessionAgentAuth_rejected hexc]
      rfl
    exact ⟨b, accepts_event hlog trivial rfl, hnext (h.skip 1)⟩
  | true =>
    have hauth : AuthLog (some w.next) e := by
      rw [he]
      exact sessionAgentAuth_log username w.next connectRc listRc rounds
    obtain ⟨hlog⟩ | ⟨n, hlog, hend⟩ | ⟨n, hlog⟩ := hauth
    · exact ⟨b, accepts_event hlog trivial rfl, hnext (h.skip 1)⟩
    · obtain ⟨hsound, hbooks, -⟩ := sound_allocated h.next_fresh n
      refine ⟨_, accepts_event hlog hsound hbooks, ?_⟩
      rw [if_pos hend]
      trivial
    · obtain ⟨hsound, hbooks, husable⟩ := sound_allocated h.next_fresh n
      refine ⟨post (post b (.acquire (some w.next))) (.release (some w.next)),
        accepts_event hlog ?_ ?_, hnext h.transient⟩
      · rw [← List.cons_append, sound_append, hbooks]
        exact ⟨hsound, husable, trivial⟩
      · rw [← List.cons_append, books_append, hbooks]
        rfl

/-- **One step**: an operation that fails early enough or frees what it allocates refines the
ledger. -/
theorem agent_refines :
    Refines agentStep AgentOp.Managed ((spec noOwners).comap AgentEvent.log) AgentsRel := by
  intro s op s' es b hR hg hs
  cases s with
  | none => cases op <;> cases hs
  | some w =>
    have hheld : AgentsHeld w b := hR
    cases op with
    | agentInit first second =>
      obtain rfl : first = false := hg
      obtain ⟨-, rfl, rfl⟩ := guarded_eq_some hs
      exact ⟨b, accepts_event (l := []) rfl trivial rfl, hheld.skip 2⟩
    | new native =>
      obtain ⟨hsession, rfl, rfl⟩ := guarded_eq_some hs
      cases native with
      | false => exact ⟨b, accepts_event (l := []) rfl trivial rfl, hheld.skip 1⟩
      | true =>
        exact ⟨_, accepts_event (l := [.acquire (some w.next)]) rfl ⟨hheld.next_fresh, trivial⟩ rfl,
          hheld.add hsession⟩
    | agentAuth username native connectRc listRc rounds =>
      obtain ⟨-, rfl, rfl⟩ := guarded_eq_some hs
      exact hheld.agentAuth hg rfl
    | method i m =>
      obtain ⟨a, ha, rfl, rfl⟩ := map_eq_some hs
      obtain ⟨n, hlog⟩ := m.event_log a
      obtain ⟨hsound, hbooks⟩ := sound_calls (hheld.live ha) n
      refine ⟨b, accepts_event hlog hsound hbooks, ?_⟩
      split
      · trivial
      · exact hheld
    | clear i => exact hg.elim
    | dealloc i =>
      obtain ⟨a, ha, rfl, rfl⟩ := map_eq_some hs
      have hcond := hheld.linked a (List.mem_of_getElem? ha)
      have hlog : (a.dealloc w.session).agentEvent.log = [.call a.agent, .release a.agent] := by
        rw [Agent.dealloc, if_pos ⟨hcond.2.1, hcond.2.2, hcond.1⟩]
        rfl
      have hlive := hheld.live ha
      exact ⟨_, accepts_event hlog ⟨hlive, hlive, trivial⟩ rfl, hheld.dealloc ha⟩
    | deallocSession =>
      obtain ⟨⟨-, hlinks⟩, rfl, rfl⟩ := guarded_eq_some hs
      refine ⟨b, ⟨trivial, rfl⟩, hheld.holds, hheld.fresh, fun a ha => ?_⟩
      -- every object still has its link, so there is none
      have hlink := (hheld.linked a ha).2.1
      rw [hlinks a ha] at hlink
      cases hlink

/-! ## Failed initialisations -/

/-- A failed initialisation, if there is one, raises. -/
def AgentEvent.Surfaces (e : AgentEvent) : Prop :=
  e.InitFailed → ∃ exc, e.ending = .raised exc

/-- A call that only passes or frees an agent, or one that succeeds. -/
def AgentCall.Fine (c : AgentCall) : Prop :=
  c ≠ .init none ∧ ∀ agent rc, c = .connect agent rc → rc = 0

theorem fine_init (k : Nat) : (AgentCall.init (some k)).Fine :=
  ⟨nofun, nofun⟩

theorem fine_connect (agent : AgentPtr) : (AgentCall.connect agent 0).Fine :=
  ⟨nofun, fun _ _ h => (AgentCall.connect.inj h).2.symm⟩

theorem fine_use (fn : AgentFn) (agent : AgentPtr) : (AgentCall.use fn agent).Fine :=
  ⟨nofun, nofun⟩

theorem fine_free (agent : AgentPtr) : (AgentCall.free agent).Fine :=
  ⟨nofun, nofun⟩

theorem surfaces_of_fine {e : AgentEvent} (h : ∀ c ∈ e.calls, c.Fine) : e.Surfaces := by
  intro hfailed
  rcases hfailed with hinit | ⟨agent, rc, hconnect, hrc⟩
  · exact absurd rfl (h _ hinit).1
  · exact absurd ((h _ hconnect).2 agent rc rfl) hrc

theorem OnlyUses.fine {agent : AgentPtr} {calls : List AgentCall} (h : OnlyUses agent calls) :
    ∀ c ∈ calls, c.Fine := by
  intro c hc
  obtain ⟨fn, rfl⟩ := h c hc
  exact fine_use fn agent

theorem FreesAtEnd.fine {agent : AgentPtr} {e : Effect AgentCall (Option Int)}
    (h : FreesAtEnd agent e) : ∀ c ∈ e.calls, c.Fine := by
  obtain ⟨uses, huses, ⟨hcalls, -⟩ | ⟨hcalls, -⟩⟩ := h
  · rw [hcalls]
    exact huses.fine
  · rw [hcalls, List.forall_mem_append, List.forall_mem_singleton]
    exact ⟨huses.fine, fine_free agent⟩

theorem sessionAgentInit_surfaces (first second : AgentPtr) :
    (sessionAgentInit first second).agentEvent.Surfaces := by
  cases first with
  | none => exact fun _ => ⟨_, rfl⟩
  | some k =>
    cases second with
    | none => exact fun _ => ⟨_, rfl⟩
    | some l =>
      have hfine : ∀ c ∈ [AgentCall.init (some k), .init (some l)], c.Fine :=
        List.forall_mem_cons.mpr ⟨fine_init k, List.forall_mem_singleton.mpr (fine_init l)⟩
      exact surfaces_of_fine hfine

theorem agentNew_surfaces (native : AgentPtr) : (Agent.new native).agentEvent.Surfaces := by
  cases native with
  | none => exact fun _ => ⟨_, rfl⟩
  | some k => exact surfaces_of_fine (List.forall_mem_singleton.mpr (fine_init k))

theorem sessionAgentAuth_surfaces (username : PyObj) (native : AgentPtr) (connectRc listRc : Int)
    (rounds : List (Int × Int)) :
    (sessionAgentAuth username native connectRc listRc rounds).loopEvent.Surfaces := by
  cases hb : bytesArg username with
  | error exc =>
    rw [sessionAgentAuth_rejected hb]
    exact fun _ => ⟨exc, rfl⟩
  | ok b =>
    rw [sessionAgentAuth, hb, Effect.lift_ok_bind]
    by_cases hconnect : connectRc = 0
    · cases native with
      | none =>
        rw [hconnect]
        exact fun _ => ⟨_, rfl⟩
      | some k =>
        rw [hconnect, initConnectAgent_connected, Effect.ok_bind]
        refine surfaces_of_fine (List.forall_mem_append.mpr ⟨?_, ?_⟩)
        · exact List.forall_mem_cons.mpr
            ⟨fine_init k, List.forall_mem_singleton.mpr (fine_connect (some k))⟩
        · exact (agentAuth_frees b (some k) listRc rounds).fine
    · rw [initConnectAgent_failed native hconnect]
      exact fun _ => ⟨_, rfl⟩

theorem AgentMethod.event_surfaces (a : Agent) (m : AgentMethod) : (m.event a).Surfaces := by
  rcases m.event_cases a with huses | ⟨rc, rfl⟩
  · exact surfaces_of_fine huses.fine
  · by_cases hrc : rc = 0
    · have hfine : ∀ c ∈ (a.connect rc).calls, c.Fine := by
        rw [connect_calls, List.forall_mem_singleton, hrc]
        exact fine_connect a.agent
      exact surfaces_of_fine hfine
    · refine fun _ =>
        ⟨{ cls := .agentConnectionError, args := [.text "Unable to connect to agent"] }, ?_⟩
      show (a.connect rc).agentEvent.ending = _
      rw [Agent.connect, if_pos hrc]
      rfl

theorem agentDealloc_surfaces (a : Agent) (nativeSession : Bool) :
    (a.dealloc nativeSession).agentEvent.Surfaces := by
  have hfine : ∀ c ∈ (a.dealloc nativeSession).calls, c.Fine := by
    rw [Agent.dealloc]
    split
    · exact List.forall_mem_cons.mpr
        ⟨fine_use .disconnect a.agent, List.forall_mem_singleton.mpr (fine_free a.agent)⟩
    · exact fun _ hc => absurd hc List.not_mem_nil
  exact surfaces_of_fine hfine

theorem agentStep_surfaces {s s' : Option AgentWorld} {op : AgentOp} {es : List AgentEvent}
    (hs : agentStep s op = some (s', es)) : ∀ e ∈ es, e.Surfaces := by
  have hone {e : AgentEvent} (h : e.Surfaces) : ∀ e' ∈ [e], e'.Surfaces :=
    List.forall_mem_singleton.mpr h
  have hnil : ∀ e ∈ ([] : List AgentEvent), e.Surfaces := fun e he => absurd he List.not_mem_nil
  cases s with
  | none => cases op <;> cases hs
  | some w =>
    cases op with
    | agentInit first second =>
      obtain ⟨-, rfl, rfl⟩ := guarded_eq_some hs
      exact hone (sessionAgentInit_surfaces _ _)
    | new native =>
      obtain ⟨-, rfl, rfl⟩ := guarded_eq_some hs
      exact hone (agentNew_surfaces _)
    | agentAuth username native connectRc listRc rounds =>
      obtain ⟨-, rfl, rfl⟩ := guarded_eq_some hs
      exact hone (sessionAgentAuth_surfaces _ _ _ _ _)
    | method i m =>
      obtain ⟨a, -, rfl, rfl⟩ := map_eq_some hs
      exact hone (m.event_surfaces a)
    | clear i =>
      obtain ⟨a, -, rfl, rfl⟩ := map_eq_some hs
      exact hnil
    | dealloc i =>
      obtain ⟨a, -, rfl, rfl⟩ := map_eq_some hs
      exact hone (agentDealloc_surfaces a _)
    | deallocSession =>
      obtain ⟨-, rfl, rfl⟩ := guarded_eq_some hs
      exact hnil

/-! ## Runs -/

theorem acquire_none_not_mem (es : List AgentEvent) :
    .acquire none ∉ es.flatMap AgentEvent.log := by
  intro h
  obtain ⟨e, -, he⟩ := List.mem_flatMap.mp h
  obtain ⟨c, -, hc⟩ := List.mem_flatMap.mp he
  cases c with
  | init agent => cases agent <;> simp [AgentCall.event] at hc
  | connect agent rc => simp [AgentCall.event] at hc
  | use fn agent => simp [AgentCall.event] at hc
  | free agent => simp [AgentCall.event] at hc

/-- **Agents are managed.** In every run of a session and its agents in which `Session.agent_init`
fails early, `Session.agent_auth` gets an agent and no link is cleared, agents are passed and freed
only while they are live, failed initialisations raise, and at the end every agent has been freed
exactly once. -/
theorem agents_managed (ops : List AgentOp) (es : List AgentEvent) (s : Option AgentWorld)
    (hrun : Runs agentStep AgentOp.Managed (some .start) ops es s) : AgentsManaged es s := by
  have hstart : AgentsRel (some .start) fun _ => .fresh :=
    { holds := ⟨List.nodup_nil, fun p => iff_of_false Status.noConfusion List.not_mem_nil⟩
      fresh := fun _ _ => rfl
      linked := fun a ha => absurd ha List.not_mem_nil }
  obtain ⟨b, ⟨hsound, rfl⟩, hrel⟩ := agent_refines.run hrun hstart
  refine ⟨?_, ?_, ?_⟩
  · intro before e after hlog agent he
    obtain ⟨hacq, hrelease⟩ := hsound.valid (fun _ => rfl) before e after hlog agent he
    refine ⟨?_, hacq, hrelease⟩
    rintro rfl
    have hmem := List.mem_append_left (e :: after) hacq
    rw [← hlog] at hmem
    exact acquire_none_not_mem es hmem
  · have hsurface := Runs.induction (fun _ => True) AgentEvent.Surfaces
      (fun _ _ _ _ _ _ hs => ⟨trivial, agentStep_surfaces hs⟩) hrun trivial
    exact hsurface.2
  · intro w hw hgone agent hacq
    rw [hw] at hrel
    have hheld : AgentsHeld w _ := hrel
    refine hsound.count_release rfl hacq fun hlive => ?_
    have hmem := (hheld.holds.live_iff agent).mp hlive
    rw [hgone.2] at hmem
    exact List.not_mem_nil hmem

def exampleUser : PyObj :=
  .bytes ⟨[117], by decide⟩

/-- An agent of the program, which is connected, and one of `Session.agent_auth`. -/
theorem agents_managed_example :
    ∃ es, Runs agentStep AgentOp.Managed (some .start)
      [.new true, .method 0 (.connect 0), .agentAuth exampleUser true 0 0 [(0, 0)], .dealloc 0,
        .deallocSession] es (some ⟨false, [], 2⟩) ∧ AgentsManaged es (some ⟨false, [], 2⟩) := by
  obtain ⟨es, hrun⟩ : ∃ es, Runs agentStep AgentOp.Managed (some .start)
      [.new true, .method 0 (.connect 0), .agentAuth exampleUser true 0 0 [(0, 0)], .dealloc 0,
        .deallocSession] es (some ⟨false, [], 2⟩) :=
    ⟨_, .cons trivial rfl <| .cons trivial rfl <| .cons (.inl rfl) rfl <| .cons trivial rfl <|
      .cons trivial rfl <| .nil _⟩
  exact ⟨es, hrun, agents_managed _ _ _ hrun⟩

/-- The agent that the constructor allocates for `Session.agent_init` is lost, and
`Session.agent_auth` passes on a NULL. -/
theorem agents_not_managed :
    (∃ es s, Runs agentStep (fun _ _ => True) (some .start)
      [.agentInit true true, .dealloc 0, .deallocSession] es s ∧ ¬AgentsManaged es s) ∧
    ∃ es s, Runs agentStep (fun _ _ => True) (some .start)
      [.agentAuth exampleUser false (-1) 0 []] es s ∧ ¬AgentsManaged es s := by
  constructor
  · refine ⟨_, _, runs_of_exec rfl, fun h => ?_⟩
    exact absurd (h.freed _ rfl ⟨rfl, rfl⟩ (some 1) (by decide)) (by decide)
  · refine ⟨_, _, runs_of_exec rfl, fun h => ?_⟩
    exact (h.used [] (.call none) _ rfl none (.inl rfl)).1 rfl

end Ssh2Python
