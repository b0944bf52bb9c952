import Ssh2Python.Identities
import Ssh2Python.Verify.Agent

/-!
# What `agent_auth` does with a list of identities

As long as a round rejects its identity, `prev` points to the place before the next one, so the
rounds go through the list (`agentAuthLoop_rejects`); the first round that does not reject is the
last (`LastRound`). `agentAuth_authenticates` is the whole function.
-/

namespace Ssh2Python

variable {n : NativeAgent} {username : PyBytes} {agent : AgentPtr} {j k fuel : Nat}
  {prev : Option Nat}

/-! ## One round -/

/-- The calls of a round that tries identity `i`. -/
def tryCalls (username : PyBytes) (agent : AgentPtr) (i : Nat) : List AuthCall :=
  [.plain (.use .getIdentity agent), .userauth username agent (some i)]

/-- The calls of `clear_agent`. -/
def clearCalls (agent : AgentPtr) : List AuthCall :=
  [.plain (.use .disconnect agent), .plain (.free agent)]

/-- The ways in which round `j` can be the last, and what it does. -/
inductive LastRound (n : NativeAgent) (username : PyBytes) (agent : AgentPtr) (j : Nat) :
    Effect AuthCall (Option Int) → Prop
  | accepted (works : n.fetch j = .works) (lt : j < n.count) (ok : n.userauth (some j) = 0) :
    LastRound n username agent j ⟨tryCalls username agent j ++ clearCalls agent, .ok (some 0)⟩
  | ended (h : n.fetch j = .ends ∨ n.fetch j = .works ∧ j = n.count) :
    LastRound n username agent j ⟨.plain (.use .getIdentity agent) :: clearCalls agent,
      .error (userError .agentAuthenticationError "No identities match for user %s" username)⟩
  | failed (rc : Int) (neg : rc < 0) (h : n.fetch j = .fails rc neg) :
    LastRound n username agent j ⟨.plain (.use .getIdentity agent) :: clearCalls agent,
      .error (userError .agentGetIdentityError "Failure getting identity for user %s from agent"
        username)⟩

theorem getIdentity_works (hprev : placeAfter prev = k) (hworks : n.fetch k = .works)
    (hk : k < n.count) (identity : Option Nat) : n.getIdentity k identity prev = (0, some k) := by
  subst hprev
  simp only [NativeAgent.getIdentity, hworks, if_pos hk]

theorem getIdentity_ended (hprev : placeAfter prev = k)
    (h : n.fetch k = .ends ∨ n.fetch k = .works ∧ k = n.count) (identity : Option Nat) :
    n.getIdentity k identity prev = (1, identity) := by
  rcases h with h | ⟨h, hk⟩
  · simp only [NativeAgent.getIdentity, h]
  · have hnot : ¬placeAfter prev < n.count := by omega
    simp only [NativeAgent.getIdentity, h, if_neg hnot]

theorem getIdentity_failed {rc : Int} {neg : rc < 0} (h : n.fetch k = .fails rc neg)
    (identity prev : Option Nat) : n.getIdentity k identity prev = (rc, identity) := by
  simp only [NativeAgent.getIdentity, h]

theorem agentAuthLoop_reject (hprev : placeAfter prev = k) (h : n.Rejects k) :
    n.agentAuthLoop username agent (fuel + 1) k prev prev =
      ⟨tryCalls username agent k ++
          (n.agentAuthLoop username agent fuel (k + 1) (some k) (some k)).calls,
        (n.agentAuthLoop username agent fuel (k + 1) (some k) (some k)).result⟩ := by
  obtain ⟨hworks, hk, hauth⟩ := h
  rw [NativeAgent.agentAuthLoop, getIdentity_works hprev hworks hk]
  simp only [authIdentity_found username agent (Int.le_refl 0) Int.zero_ne_one, Effect.mapCalls,
    Effect.ok_bind, if_neg Int.zero_ne_one, if_neg hauth]
  rfl

theorem agentAuthLoop_last {last : Effect AuthCall (Option Int)} (hprev : placeAfter prev = k)
    (h : LastRound n username agent k last) :
    n.agentAuthLoop username agent (fuel + 1) k prev prev = last := by
  rw [NativeAgent.agentAuthLoop]
  cases h with
  | accepted hworks hk hauth =>
    rw [getIdentity_works hprev hworks hk]
    simp only [authIdentity_found username agent (Int.le_refl 0) Int.zero_ne_one, Effect.mapCalls,
      Effect.ok_bind, if_neg Int.zero_ne_one, if_pos hauth]
    rfl
  | ended h =>
    rw [getIdentity_ended hprev h]
    simp only [authIdentity_end, Effect.mapCalls, Effect.ok_bind, if_true]
    rfl
  | failed rc neg h =>
    rw [getIdentity_failed h]
    simp only [authIdentity_failed username agent neg, Effect.mapCalls, Effect.error_bind]
    rfl

/-! ## All rounds -/

/-- The identities from the place `k` on are tried in their order, up to the last round. -/
theorem agentAuthLoop_rejects {last : Effect AuthCall (Option Int)} (m : Nat)
    (hprev : placeAfter prev = k) (hrej : ∀ i < k + m, n.Rejects i)
    (hlast : LastRound n username agent (k + m) last) (hfuel : m < fuel) :
    n.agentAuthLoop username agent fuel k prev prev =
      ⟨(List.range' k m).flatMap (tryCalls username agent) ++ last.calls, last.result⟩ := by
  obtain ⟨fuel, rfl⟩ : ∃ f, fuel = f + 1 := ⟨fuel - 1, by omega⟩
  induction m generalizing fuel k prev with
  | zero => exact agentAuthLoop_last hprev hlast
  | succ m ih =>
    obtain ⟨fuel, rfl⟩ : ∃ f, fuel = f + 1 := ⟨fuel - 1, by omega⟩
    have hnext : k + (m + 1) = k + 1 + m := by omega
    have hplace : placeAfter (some k) = k + 1 := rfl
    rw [hnext] at hrej hlast
    rw [agentAuthLoop_reject hprev (hrej k (by omega)), ih hplace hrej hlast fuel (by omega),
      List.range'_succ, List.flatMap_cons, List.append_assoc]

theorem rejects_or_last (n : NativeAgent) (username : PyBytes) (agent : AgentPtr)
    (hk : k ≤ n.count) : n.Rejects k ∨ ∃ last, LastRound n username agent k last := by
  cases hfetch : n.fetch k with
  | ends => exact .inr ⟨_, .ended (.inl hfetch)⟩
  | fails rc neg => exact .inr ⟨_, .failed rc neg hfetch⟩
  | works =>
    rcases Nat.lt_or_eq_of_le hk with hlt | heq
    · by_cases hauth : n.userauth (some k) = 0
      · exact .inr ⟨_, .accepted hfetch hlt hauth⟩
      · exact .inl ⟨hfetch, hlt, hauth⟩
    · exact .inr ⟨_, .ended (.inr ⟨hfetch, heq⟩)⟩

/-- There is a last round: one for each identity and one more are enough. -/
theorem exists_last (n : NativeAgent) (username : PyBytes) (agent : AgentPtr) :
    ∃ j ≤ n.count, (∀ i < j, n.Rejects i) ∧ ∃ last, LastRound n username agent j last := by
  have hfrom (m : Nat) : ∀ k, k + m = n.count → (∀ i < k, n.Rejects i) →
      ∃ j ≤ n.count, (∀ i < j, n.Rejects i) ∧ ∃ last, LastRound n username agent j last := by
    induction m with
    | zero =>
      intro k hk hrej
      rcases rejects_or_last n username agent (Nat.le_of_eq hk) with h | h
      · exact absurd h.2.1 (by omega)
      · exact ⟨k, by omega, hrej, h⟩
    | succ m ih =>
      intro k hk hrej
      rcases rejects_or_last n username agent (show k ≤ n.count by omega) with h | h
      · refine ih (k + 1) (by omega) fun i hi => ?_
        rcases Nat.lt_succ_iff_lt_or_eq.mp hi with hi | rfl
        · exact hrej i hi
        · exact h
      · exact ⟨k, by omega, hrej, h⟩
  exact hfrom n.count 0 (Nat.zero_add _) fun i hi => absurd hi (Nat.not_lt_zero i)

theorem LastRound.not_rejects {last : Effect AuthCall (Option Int)}
    (h : LastRound n username agent j last) : ¬n.Rejects j := by
  rintro ⟨hworks, hlt, hauth⟩
  cases h with
  | accepted _ _ ok => exact hauth ok
  | ended h =>
    rcases h with h | ⟨-, heq⟩
    · cases hworks.symm.trans h
    · omega
  | failed rc neg h => cases hworks.symm.trans h

/-- Only one round comes after rounds that reject and does not reject itself. -/
theorem first_unique (hj : ∀ i < j, n.Rejects i) (hj' : ¬n.Rejects j) (hk : ∀ i < k, n.Rejects i)
    (hk' : ¬n.Rejects k) : j = k := by
  rcases Nat.lt_trichotomy j k with h | h | h
  · exact absurd (hk j h) hj'
  · exact h
  · exact absurd (hj k h) hk'

/-! ## What a call does -/

/-- A call with a listing, in rounds. -/
def authRun (username : PyBytes) (agent : AgentPtr) (j : Nat)
    (last : Effect AuthCall (Option Int)) :
    Effect AuthCall (Option Int) :=
  ⟨.plain (.use .listIdentities agent) ::
    ((List.range j).flatMap (tryCalls username agent) ++ last.calls), last.result⟩

theorem agentAuth_listed {last : Effect AuthCall (Option Int)} (hlist : n.listRc = 0)
    (hrej : ∀ i < j, n.Rejects i) (hlast : LastRound n username agent j last) (hfuel : j < fuel) :
    n.agentAuth username agent fuel = authRun username agent j last := by
  rw [NativeAgent.agentAuth, if_neg (not_not_intro hlist)]
  have hrej' : ∀ i < 0 + j, n.Rejects i := by rwa [Nat.zero_add]
  have hlast' : LastRound n username agent (0 + j) last := by rwa [Nat.zero_add]
  have hplace : placeAfter none = 0 := rfl
  rw [agentAuthLoop_rejects j hplace hrej' hlast' hfuel, ← List.range_eq_range']
  rfl

theorem tried_tryCalls (username : PyBytes) (agent : AgentPtr) (j : Nat) :
    ((List.range j).flatMap (tryCalls username agent)).filterMap AuthCall.identity =
      (List.range j).map some := by
  rw [List.filterMap_flatMap, List.map_eq_flatMap]
  rfl

/-- Neither call of `clear_agent`. -/
def KeepsAgent (c : AuthCall) : Prop :=
  ∀ a, c ≠ .plain (.use .disconnect a) ∧ c ≠ .plain (.free a)

theorem tryCalls_keeps (username : PyBytes) (agent : AgentPtr) (i : Nat) :
    ∀ c ∈ tryCalls username agent i, KeepsAgent c := by
  intro c hc a
  rw [tryCalls, List.mem_cons, List.mem_singleton] at hc
  rcases hc with rfl | rfl <;> exact ⟨by simp, by simp⟩

theorem LastRound.released {last : Effect AuthCall (Option Int)}
    (h : LastRound n username agent j last) :
    ∃ uses, last.calls = uses ++ clearCalls agent ∧ ∀ c ∈ uses, KeepsAgent c := by
  have hget : ∀ c ∈ [AuthCall.plain (.use .getIdentity agent)], KeepsAgent c := fun c hc =>
    tryCalls_keeps username agent 0 c
      (List.mem_of_mem_head? (by rw [List.mem_singleton.mp hc]; rfl))
  cases h with
  | accepted => exact ⟨_, rfl, tryCalls_keeps username agent j⟩
  | ended => exact ⟨[.plain (.use .getIdentity agent)], rfl, hget⟩
  | failed => exact ⟨[.plain (.use .getIdentity agent)], rfl, hget⟩

theorem NativeAgent.fetchFails_iff (hrej : ∀ i < j, n.Rejects i) (hnot : ¬n.Rejects j) :
    n.FetchFails ↔ ∃ rc neg, n.fetch j = .fails rc neg := by
  constructor
  · rintro ⟨j', rc, neg, hfetch, hrej'⟩
    have hnot' : ¬n.Rejects j' := fun h => by cases h.1.symm.trans hfetch
    obtain rfl := first_unique hrej hnot hrej' hnot'
    exact ⟨rc, neg, hfetch⟩
  · rintro ⟨rc, neg, hfetch⟩
    exact ⟨j, rc, neg, hfetch, hrej⟩

theorem NativeAgent.exhausted_iff (hrej : ∀ i < j, n.Rejects i) (hnot : ¬n.Rejects j) :
    n.Exhausted ↔ n.fetch j = .ends ∨ n.fetch j = .works ∧ j = n.count := by
  constructor
  · rintro ⟨j', hend, hrej'⟩
    have hnot' : ¬n.Rejects j' := by
      rintro ⟨hworks, hlt, -⟩
      rcases hend with h | ⟨-, heq⟩
      · cases hworks.symm.trans h
      · omega
    obtain rfl := first_unique hrej hnot hrej' hnot'
    exact hend
  · exact fun hend => ⟨j, hend, hrej⟩

theorem raises_error_iff {κ α : Type} {calls : List κ} {exc : PyExc} {cls : ExcClass} :
    (⟨calls, .error exc⟩ : Effect κ α).Raises cls ↔ exc.cls = cls := by
  constructor
  · rintro ⟨exc', h, hcls⟩
    rw [Except.error.inj h]
    exact hcls
  · exact fun h => ⟨exc, rfl, h⟩

theorem userError_raises_iff {κ α : Type} {calls : List κ} {cls cls' : ExcClass} {msg : String} :
    (⟨calls, .error (userError cls msg username)⟩ : Effect κ α).Raises cls' ↔ cls = cls' :=
  raises_error_iff

theorem not_raises_ok {κ α : Type} {calls : List κ} {a : α} {cls : ExcClass} :
    ¬(⟨calls, .ok a⟩ : Effect κ α).Raises cls := by
  rintro ⟨exc, h, -⟩
  cases h

theorem authRun_tried (last : Effect AuthCall (Option Int)) :
    (authRun username agent j last).tried = (List.range j).map some ++ last.tried := by
  rw [← tried_tryCalls username agent j]
  exact List.filterMap_append

/-- The last round tries its identity only if that is accepted. -/
theorem LastRound.tried {last : Effect AuthCall (Option Int)}
    (h : LastRound n username agent j last) :
    (last.tried = [some j] ∧ last.result = .ok (some 0) ∧ j < n.count ∧ n.userauth (some j) = 0) ∨
      (last.tried = [] ∧ ∃ exc, last.result = .error exc) := by
  cases h with
  | accepted works lt ok => exact .inl ⟨rfl, rfl, lt, ok⟩
  | ended h => exact .inr ⟨rfl, _, rfl⟩
  | failed rc neg h => exact .inr ⟨rfl, _, rfl⟩

theorem not_rejected {i : Option Nat} (hrej : ∀ i < j, n.Rejects i)
    (hi : i ∈ (List.range j).map some) :
    n.userauth i ≠ 0 := by
  obtain ⟨k, hk, rfl⟩ := List.mem_map.mp hi
  exact (hrej k (List.mem_range.mp hk)).2.2

theorem rejects_le_count (hrej : ∀ i < j, n.Rejects i) : j ≤ n.count := by
  by_contra h
  exact absurd (hrej n.count (by omega)).2.1 (Nat.lt_irrefl _)

/-- A call that lists the identities. -/
theorem authRun_authenticates {last : Effect AuthCall (Option Int)} (hlist : n.listRc = 0)
    (hrej : ∀ i < j, n.Rejects i) (hlast : LastRound n username agent j last) :
    Authenticates n agent (authRun username agent j last) where
  terminates := by
    cases hlast <;> exact nofun
  inOrder := by
    rw [authRun_tried]
    rcases hlast.tried with ⟨htried, -, hlt, -⟩ | ⟨htried, -⟩
    · exact ⟨j + 1, hlt, by rw [htried, List.range_succ, List.map_append]; rfl⟩
    · exact ⟨j, rejects_le_count hrej, by rw [htried, List.append_nil]⟩
  stops := by
    intro i hi hauth
    rw [authRun_tried] at hi ⊢
    rcases List.mem_append.mp hi with hi | hi
    · exact absurd hauth (not_rejected hrej hi)
    · rcases hlast.tried with ⟨htried, -⟩ | ⟨htried, -⟩
      · rw [htried] at hi ⊢
        rw [List.mem_singleton.mp hi, List.getLast?_concat]
      · rw [htried] at hi
        exact absurd hi List.not_mem_nil
  normal := by
    rw [authRun_tried]
    rcases hlast.tried with ⟨htried, hresult, -, hauth⟩ | ⟨htried, exc, hresult⟩
    · refine iff_of_true hresult ⟨some j, List.mem_append_right _ ?_, hauth⟩
      rw [htried]
      exact List.mem_singleton_self _
    · refine iff_of_false (fun h => ?_) ?_
      · cases hresult.symm.trans h
      · rintro ⟨i, hi, hauth⟩
        rw [htried, List.append_nil] at hi
        exact not_rejected hrej hi hauth
  listing := by
    refine iff_of_false ?_ (not_not_intro hlist)
    cases hlast with
    | accepted works lt ok => exact not_raises_ok
    | ended h => exact fun h => absurd (userError_raises_iff.mp h) (by decide)
    | failed rc neg h => exact fun h => absurd (userError_raises_iff.mp h) (by decide)
  fetching := by
    rw [NativeAgent.fetchFails_iff hrej hlast.not_rejects, and_iff_right hlist]
    cases hlast with
    | accepted works lt ok =>
      exact iff_of_false not_raises_ok fun ⟨_, _, h⟩ => by cases works.symm.trans h
    | ended h =>
      refine iff_of_false (fun h => absurd (userError_raises_iff.mp h) (by decide)) ?_
      rintro ⟨rc, neg, hfails⟩
      rcases h with h | ⟨h, -⟩ <;> cases h.symm.trans hfails
    | failed rc neg h => exact iff_of_true (raises_error_iff.mpr rfl) ⟨rc, neg, h⟩
  exhausted := by
    rw [NativeAgent.exhausted_iff hrej hlast.not_rejects, and_iff_right hlist]
    cases hlast with
    | accepted works lt ok =>
      refine iff_of_false not_raises_ok ?_
      rintro (h | ⟨-, h⟩)
      · cases works.symm.trans h
      · omega
    | ended h => exact iff_of_true (raises_error_iff.mpr rfl) h
    | failed rc neg h =>
      refine iff_of_false (fun h => absurd (userError_raises_iff.mp h) (by decide)) ?_
      rintro (h' | ⟨h', -⟩) <;> cases h.symm.trans h'
  released := by
    obtain ⟨uses, hcalls, hkeeps⟩ := hlast.released
    refine ⟨.plain (.use .listIdentities agent) ::
      ((List.range j).flatMap (tryCalls username agent) ++ uses), ?_, ?_⟩
    · rw [authRun, hcalls, List.cons_append, List.append_assoc]
      rfl
    · intro c hc
      rcases List.mem_cons.mp hc with rfl | hc
      · exact fun a => ⟨by simp, by simp⟩
      · rcases List.mem_append.mp hc with hc | hc
        · obtain ⟨i, -, hi⟩ := List.mem_flatMap.mp hc
          exact tryCalls_keeps username agent i c hi
        · exact hkeeps c hc

/-- A call that cannot list them. -/
theorem agentAuth_not_listed (hlist : n.listRc ≠ 0) :
    n.agentAuth username agent fuel =
      ⟨.plain (.use .listIdentities agent) :: clearCalls agent,
        .error { cls := .agentListIdentitiesError,
                 args := [.text "Failure requesting identities from agent"] }⟩ := by
  rw [NativeAgent.agentAuth, if_pos hlist]
  rfl

theorem not_listed_authenticates (hlist : n.listRc ≠ 0) :
    Authenticates n agent
      ⟨.plain (.use .listIdentities agent) :: clearCalls agent,
        .error { cls := .agentListIdentitiesError,
                 args := [.text "Failure requesting identities from agent"] }⟩ where
  terminates := nofun
  inOrder := ⟨0, Nat.zero_le _, rfl⟩
  stops := fun i hi => absurd hi List.not_mem_nil
  normal := iff_of_false nofun fun ⟨_, hi, _⟩ => absurd hi List.not_mem_nil
  listing := iff_of_true (raises_error_iff.mpr rfl) hlist
  fetching := iff_of_false (fun h => absurd (raises_error_iff.mp h) (by decide))
    fun h => hlist h.1
  exhausted := iff_of_false (fun h => absurd (raises_error_iff.mp h) (by decide))
    fun h => hlist h.1
  released := by
    refine ⟨[.plain (.use .listIdentities agent)], rfl, fun c hc a => ?_⟩
    rw [List.mem_singleton.mp hc]
    exact ⟨by simp, by simp⟩

/-- Calls that carry no pointer are the same without it. -/
theorem mapCalls_plain_erase {α : Type} (e : Effect AgentCall α) :
    (e.mapCalls AuthCall.plain).mapCalls AuthCall.erase = e := by
  rw [Effect.mapCalls_mapCalls]
  exact e.mapCalls_id

/-- Without the pointers the loop is the loop over the codes of the rounds. -/
theorem agentAuthLoop_erase (fuel round : Nat) (identity prev : Option Nat) :
    (n.agentAuthLoop username agent fuel round identity prev).mapCalls AuthCall.erase =
      agentAuthLoop username agent (n.rounds fuel round identity prev) := by
  induction fuel generalizing round identity prev with
  | zero => rfl
  | succ fuel ih =>
    simp only [NativeAgent.agentAuthLoop, NativeAgent.rounds, agentAuthLoop, Effect.mapCalls_bind,
      mapCalls_plain_erase]
    refine congrArg _ (funext fun rc => ?_)
    by_cases hend : rc = 1
    · rw [if_pos hend, if_pos hend, Effect.mapCalls_raise]
    · rw [if_neg hend, if_neg hend, Effect.mapCalls_bind, Effect.mapCalls_emit]
      refine congrArg _ (funext fun _ => ?_)
      by_cases hauth : n.userauth (n.getIdentity round identity prev).2 = 0
      · rw [if_pos hauth, if_pos hauth, Effect.mapCalls_bind, mapCalls_plain_erase]
        rfl
      · rw [if_neg hauth, if_neg hauth, ih]

/-- `agent_auth` without its pointers. -/
theorem agentAuth_erase (n : NativeAgent) (username : PyBytes) (agent : AgentPtr) (fuel : Nat) :
    (n.agentAuth username agent fuel).mapCalls AuthCall.erase =
      agentAuth username agent n.listRc (n.rounds fuel 0 none none) := by
  rw [NativeAgent.agentAuth, agentAuth, Effect.mapCalls_bind, Effect.mapCalls_emit]
  refine congrArg _ (funext fun _ => ?_)
  by_cases hlist : n.listRc = 0
  · rw [if_neg (not_not_intro hlist), if_neg (not_not_intro hlist), agentAuthLoop_erase]
  · rw [if_pos hlist, if_pos hlist, Effect.mapCalls_bind, mapCalls_plain_erase]
    rfl

end Ssh2Python
