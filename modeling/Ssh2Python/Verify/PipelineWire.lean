import Ssh2Python.Pipeline
import Mathlib.Data.List.Forall2

/-!
# What a pipeline has sent

The bytes that the channel took are whole requests in the order in which they were made, and the
start of the next one, wherever the channel has stopped taking them: `OnWire` is kept when the
chunks are sent on (`sendChunks_spec`), when requests are added and when answers are taken. So
`frames` gives the server the requests that were sent to their end (`OnWire.frames_eq`).
-/

namespace Ssh2Python

open Lib.CInt Lib.Wire

/-! ## Chunks -/

/-- The message of a chunk, behind its length. -/
def PipelineChunk.message (c : PipelineChunk) : List UInt8 :=
  c.packet.drop 4

/-- The bytes of a chunk that the channel has. -/
def PipelineChunk.sentBytes (c : PipelineChunk) : List UInt8 :=
  c.packet.take c.sent

structure PipelineChunk.Framed (c : PipelineChunk) : Prop where
  packet_eq : c.packet = frame c.message
  short : c.message.length < 2 ^ 32
  total : c.sent + c.lefttosend = c.packet.length

/-- A chunk is sent only when those before it are. -/
def InOrder (cs : List PipelineChunk) : Prop :=
  cs.Pairwise fun c c' => c.lefttosend = 0 ∨ c'.sent = 0

/-- What the channel took: the messages of chunks that are gone, and what was sent of the others. -/
structure OnWire (gone : List (List UInt8)) (cs : List PipelineChunk) (wire : List UInt8) :
    Prop where
  wire_eq : wire = gone.flatMap frame ++ cs.flatMap PipelineChunk.sentBytes
  short : ∀ m ∈ gone, m.length < 2 ^ 32
  framed : ∀ c ∈ cs, c.Framed
  inOrder : InOrder cs

/-- The chunk later: more of it is sent. -/
def PipelineChunk.Advanced (c c' : PipelineChunk) : Prop :=
  ∃ k ≤ c.lefttosend, c' = c.advance k

variable {c c' : PipelineChunk} {cs cs' : List PipelineChunk} {gone : List (List UInt8)}
  {wire : List UInt8}

theorem PipelineChunk.Advanced.refl (c : PipelineChunk) : c.Advanced c :=
  ⟨0, Nat.zero_le _, rfl⟩

theorem PipelineChunk.Framed.advance (h : c.Framed) {k : Nat} (hk : k ≤ c.lefttosend) :
    (c.advance k).Framed := by
  have htotal := h.total
  refine ⟨h.packet_eq, h.short, ?_⟩
  simp only [PipelineChunk.advance]
  omega

theorem PipelineChunk.sentBytes_advance (c : PipelineChunk) (k : Nat) :
    (c.advance k).sentBytes = c.sentBytes ++ (c.packet.drop c.sent).take k :=
  List.take_add

theorem PipelineChunk.Framed.sentBytes_full (h : c.Framed) (hfull : c.lefttosend = 0) :
    c.sentBytes = frame c.message := by
  have htotal := h.total
  rw [hfull, Nat.add_zero] at htotal
  rw [sentBytes, htotal, List.take_length, ← h.packet_eq]

theorem flatMap_sentBytes_fresh (h : ∀ c ∈ cs, c.sent = 0) :
    cs.flatMap PipelineChunk.sentBytes = [] := by
  rw [List.flatMap_eq_nil_iff]
  intro c hc
  rw [PipelineChunk.sentBytes, h c hc, List.take_zero]

/-! ## Sending on -/

/-- Writing a chunk sends the next bytes of it, and all of them if it is not given up before. -/
theorem sendChunk_spec (again : Bool) (stall : Int) (writes : List Nat) (c : PipelineChunk)
    (wire : List UInt8) : ∃ k ≤ c.lefttosend,
      (sendChunk again stall writes c wire).chunks = c.advance k ∧
      (sendChunk again stall writes c wire).wire = wire ++ (c.packet.drop c.sent).take k ∧
      ((sendChunk again stall writes c wire).rc = none → again = true →
        (sendChunk again stall writes c wire).chunks.lefttosend = 0) ∧
      ∀ rc ∈ (sendChunk again stall writes c wire).rc, rc = stall := by
  induction writes generalizing c wire with
  | nil => exact ⟨0, Nat.zero_le _, rfl, by simp [sendChunk], nofun, by simp [sendChunk]⟩
  | cons n writes ih =>
    have hle : min n c.lefttosend ≤ c.lefttosend := Nat.min_le_right _ _
    unfold sendChunk
    split
    · obtain ⟨k, hk, hchunk, hwire, hfull, hrc⟩ := ih (c.advance (min n c.lefttosend))
        (wire ++ (c.packet.drop c.sent).take (min n c.lefttosend))
      simp only [PipelineChunk.advance] at hk
      refine ⟨min n c.lefttosend + k, by omega, ?_, ?_, hfull, hrc⟩
      · rw [hchunk]
        simp only [PipelineChunk.advance, Nat.sub_sub, Nat.add_assoc]
      · rw [hwire, List.take_add, ← List.append_assoc, List.drop_drop]
        rfl
    · next hstop =>
      refine ⟨min n c.lefttosend, hle, rfl, rfl, fun _ hagain => ?_, by simp⟩
      by_contra hne
      exact hstop ⟨hagain, hne⟩

/-- A chunk that is sent counts as gone. -/
theorem onWire_cons_iff (hc : c.Framed) (hfull : c.lefttosend = 0) :
    OnWire gone (c :: cs) wire ↔ OnWire (gone ++ [c.message]) cs wire := by
  have hbytes := hc.sentBytes_full hfull
  constructor
  · rintro ⟨hwire, hshort, hframed, horder⟩
    refine ⟨?_, ?_, fun c' hc' => hframed c' (List.mem_cons_of_mem c hc'),
      (List.pairwise_cons.mp horder).2⟩
    · rw [hwire, List.flatMap_cons, hbytes]
      simp
    · intro m hm
      rcases List.mem_append.mp hm with hm | hm
      · exact hshort m hm
      · rw [List.mem_singleton.mp hm]
        exact hc.short
  · rintro ⟨hwire, hshort, hframed, horder⟩
    refine ⟨?_, fun m hm => hshort m (List.mem_append_left _ hm), ?_,
      List.pairwise_cons.mpr ⟨fun c' _ => .inl hfull, horder⟩⟩
    · rw [hwire, List.flatMap_cons, hbytes]
      simp
    · intro c' hc'
      rcases List.mem_cons.mp hc' with rfl | hc'
      · exact hc
      · exact hframed c' hc'

/-- Nothing is sent behind a chunk that is not. -/
theorem OnWire.fresh (h : OnWire gone (c :: cs) wire) (hleft : c.lefttosend ≠ 0) :
    ∀ c' ∈ cs, c'.sent = 0 :=
  fun c' hc' => ((List.pairwise_cons.mp h.inOrder).1 c' hc').resolve_left hleft

theorem OnWire.advance (h : OnWire gone (c :: cs) wire) (hleft : c.lefttosend ≠ 0) {k : Nat}
    (hk : k ≤ c.lefttosend) :
    OnWire gone (c.advance k :: cs) (wire ++ (c.packet.drop c.sent).take k) := by
  have hfresh := h.fresh hleft
  refine ⟨?_, h.short, ?_, List.pairwise_cons.mpr ⟨fun c' hc' => .inr (hfresh c' hc'),
    (List.pairwise_cons.mp h.inOrder).2⟩⟩
  · rw [h.wire_eq, List.flatMap_cons, List.flatMap_cons, flatMap_sentBytes_fresh hfresh,
      PipelineChunk.sentBytes_advance]
    simp
  · intro c' hc'
    rcases List.mem_cons.mp hc' with rfl | hc'
    · exact (h.framed c List.mem_cons_self).advance hk
    · exact h.framed c' (List.mem_cons_of_mem c hc')

/-- What sending on leaves alone. -/
theorem map_advanced {α : Type} {f : PipelineChunk → α} (hf : ∀ c k, f (c.advance k) = f c)
    (hadv : List.Forall₂ PipelineChunk.Advanced cs cs') : cs'.map f = cs.map f := by
  induction hadv with
  | nil => rfl
  | cons hc _ ih =>
    obtain ⟨k, -, rfl⟩ := hc
    rw [List.map_cons, List.map_cons, ih, hf]

/-- Every chunk was one before. -/
theorem mem_advanced (hadv : List.Forall₂ PipelineChunk.Advanced cs cs') (hc : c' ∈ cs') :
    ∃ c ∈ cs, c.Advanced c' := by
  induction hadv with
  | nil => exact absurd hc List.not_mem_nil
  | cons hfirst _ ih =>
    rcases List.mem_cons.mp hc with rfl | hc
    · exact ⟨_, List.mem_cons_self, hfirst⟩
    · obtain ⟨c, hc', hadv'⟩ := ih hc
      exact ⟨c, List.mem_cons_of_mem _ hc', hadv'⟩

theorem forall₂_advanced_refl (cs : List PipelineChunk) :
    List.Forall₂ PipelineChunk.Advanced cs cs :=
  List.forall₂_same.mpr fun c _ => .refl c

/-- **Sending on** keeps the wire a sequence of requests. If the first chunk is sent to its end, it
is sent when this ends without an error. -/
theorem sendChunks_spec (again : Bool) (stall : Int) {writes : List Nat}
    (h : OnWire gone cs wire) :
    OnWire gone (sendChunks again stall cs writes wire).chunks
      (sendChunks again stall cs writes wire).wire ∧
      List.Forall₂ PipelineChunk.Advanced cs (sendChunks again stall cs writes wire).chunks ∧
      ((sendChunks again stall cs writes wire).rc = none → again = true →
        ∀ c ∈ (sendChunks again stall cs writes wire).chunks.head?, c.lefttosend = 0) ∧
      ∀ rc ∈ (sendChunks again stall cs writes wire).rc, rc = stall := by
  induction cs generalizing again gone writes wire with
  | nil => exact ⟨h, .nil, nofun, by simp [sendChunks]⟩
  | cons c cs ih =>
    have hc := h.framed c List.mem_cons_self
    unfold sendChunks
    by_cases hfull : c.lefttosend = 0
    · obtain ⟨hwire, hadv, -, hrc⟩ := @ih _ _ false writes ((onWire_cons_iff hc hfull).mp h)
      rw [if_pos hfull]
      refine ⟨(onWire_cons_iff hc hfull).mpr hwire, .cons (.refl c) hadv, fun _ _ c' hc' => ?_, hrc⟩
      obtain rfl : c = c' := by simpa using hc'
      exact hfull
    · obtain ⟨k, hk, hchunk, hsent, hagain, hstall⟩ := sendChunk_spec again stall writes c wire
      have hfirst := h.advance hfull hk
      rw [← hchunk, ← hsent] at hfirst
      rw [if_neg hfull]
      dsimp only
      split
      · next hstop =>
        refine ⟨hfirst, .cons ⟨k, hk, hchunk⟩ (forall₂_advanced_refl cs),
          fun hnone htrue c' hc' => ?_, hstall⟩
        obtain rfl : (sendChunk again stall writes c wire).chunks = c' := by simpa using hc'
        exact hagain hnone htrue
      · next hgo =>
        rw [not_or, not_not, not_not] at hgo
        have hframed := hfirst.framed _ List.mem_cons_self
        obtain ⟨hwire, hadv, -, hrc⟩ := @ih _ _ false (sendChunk again stall writes c wire).writes
          ((onWire_cons_iff hframed hgo.2).mp hfirst)
        refine ⟨(onWire_cons_iff hframed hgo.2).mpr hwire, .cons ⟨k, hk, hchunk⟩ hadv,
          fun _ _ c' hc' => ?_, hrc⟩
        obtain rfl : (sendChunk again stall writes c wire).chunks = c' := by simpa using hc'
        exact hgo.2

/-- A channel that takes whole chunks takes them all. -/
theorem sendChunks_all (again : Bool) (stall : Int) {writes : List Nat}
    (hlen : cs.length ≤ writes.length)
    (hall : ∀ n ∈ writes, ∀ c ∈ cs, c.lefttosend ≤ n) :
    (sendChunks again stall cs writes wire).rc = none ∧
      ∀ c ∈ (sendChunks again stall cs writes wire).chunks, c.lefttosend = 0 := by
  induction cs generalizing again writes wire with
  | nil => exact ⟨rfl, by simp [sendChunks]⟩
  | cons c cs ih =>
    unfold sendChunks
    have hrest : ∀ n ∈ writes, ∀ c' ∈ cs, c'.lefttosend ≤ n :=
      fun n hn c' hc' => hall n hn c' (List.mem_cons_of_mem c hc')
    by_cases hfull : c.lefttosend = 0
    · obtain ⟨hnone, hrest⟩ := @ih wire false writes (Nat.le_of_succ_le hlen) hrest
      rw [if_pos hfull]
      exact ⟨hnone, List.forall_mem_cons.mpr ⟨hfull, hrest⟩⟩
    · cases writes with
      | nil => exact absurd hlen (by simp)
      | cons n writes =>
        have hn := hall n List.mem_cons_self c List.mem_cons_self
        have hfirst : sendChunk again stall (n :: writes) c wire = ⟨none, c.advance c.lefttosend,
            wire ++ (c.packet.drop c.sent).take c.lefttosend, writes⟩ := by
          rw [sendChunk, Nat.min_eq_right hn, if_neg]
          simp [PipelineChunk.advance]
        obtain ⟨hnone, hrest⟩ := @ih
          (wire ++ (c.packet.drop c.sent).take c.lefttosend) false writes
          (Nat.le_of_succ_le_succ hlen)
          fun n' hn' => hrest n' (List.mem_cons_of_mem n hn')
        have hsent : (c.advance c.lefttosend).lefttosend = 0 := Nat.sub_self _
        rw [if_neg hfull, hfirst]
        simp only [hsent, ne_eq, not_true_eq_false, or_self, if_false]
        exact ⟨hnone, List.forall_mem_cons.mpr ⟨hsent, hrest⟩⟩

/-! ## Requests and answers -/

/-- The requests of the chunks that are sent. -/
def sentMessages (cs : List PipelineChunk) : List (List UInt8) :=
  (cs.filter fun c => c.lefttosend = 0).map PipelineChunk.message

theorem sentMessages_cons (hfull : c.lefttosend = 0) :
    sentMessages (c :: cs) = c.message :: sentMessages cs := by
  simp [sentMessages, hfull]

/-- A chunk that is on its way ends the messages. -/
theorem sentMessages_fresh (hframed : ∀ c ∈ cs, c.Framed) (hfresh : ∀ c ∈ cs, c.sent = 0) :
    sentMessages cs = [] := by
  rw [sentMessages, List.map_eq_nil_iff, List.filter_eq_nil_iff]
  intro c hc
  have htotal := (hframed c hc).total
  have hlen := congrArg List.length (hframed c hc).packet_eq
  rw [length_frame] at hlen
  rw [hfresh c hc] at htotal
  simp only [decide_eq_true_eq]
  omega

/-- Behind a chunk that is not sent there is no message. -/
theorem OnWire.sentMessages_nil (h : OnWire gone (c :: cs) wire) (hleft : c.lefttosend ≠ 0) :
    sentMessages (c :: cs) = [] := by
  have htail := sentMessages_fresh (fun c' hc' => h.framed c' (List.mem_cons_of_mem c hc'))
    (h.fresh hleft)
  rw [sentMessages, List.map_eq_nil_iff] at htail ⊢
  rw [List.filter_cons_of_neg (by simpa using hleft), htail]

/-- **What the server has**: the requests that are gone, and those of the chunks that are sent. -/
theorem OnWire.frames_eq (h : OnWire gone cs wire) : frames wire = gone ++ sentMessages cs := by
  induction cs generalizing gone with
  | nil =>
    have htorn := frames_flatMap_append h.short torn_nil
    rw [h.wire_eq]
    simpa [sentMessages] using htorn
  | cons c cs ih =>
    have hc := h.framed c List.mem_cons_self
    by_cases hfull : c.lefttosend = 0
    · rw [ih ((onWire_cons_iff hc hfull).mp h), sentMessages_cons hfull, List.append_assoc]
      rfl
    · have hfresh := h.fresh hfull
      have htotal := hc.total
      have htorn : Torn c.sentBytes := by
        have hlt : c.sent < (frame c.message).length := by
          rw [← hc.packet_eq]
          omega
        rw [PipelineChunk.sentBytes, hc.packet_eq]
        exact torn_take hc.short hlt
      rw [h.wire_eq, List.flatMap_cons, flatMap_sentBytes_fresh hfresh, List.append_nil,
        h.sentMessages_nil hfull, List.append_nil]
      exact frames_flatMap_append h.short htorn

/-- A request at the end of the list. -/
theorem OnWire.concat (h : OnWire gone cs wire) (hc : c.Framed) (hsent : c.sent = 0) :
    OnWire gone (cs ++ [c]) wire := by
  refine ⟨?_, h.short, ?_, ?_⟩
  · rw [h.wire_eq, List.flatMap_append, List.flatMap_singleton, PipelineChunk.sentBytes, hsent,
      List.take_zero, List.append_nil]
  · intro c' hc'
    rcases List.mem_append.mp hc' with hc' | hc'
    · exact h.framed c' hc'
    · rw [List.mem_singleton.mp hc']
      exact hc
  · refine List.pairwise_append.mpr ⟨h.inOrder, List.pairwise_singleton _ c,
      fun c' _ c'' hc'' => ?_⟩
    rw [List.mem_singleton.mp hc'']
    exact .inr hsent

end Ssh2Python
