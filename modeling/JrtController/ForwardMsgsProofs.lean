import JrtController.RouterProofs

/-! # What a batch delivers

    `_jrtc_router_forward_msgs` walks the bitmap of subscribers once per buffer,
    with one iterator that is initialised before the first buffer.  The inner
    loop runs the iterator dry, so only the first buffer of a batch is offered
    to anybody; the others are released undelivered.

    * `ctx_loopAt_succ` — the registry from one buffer to the next: the first
      buffer is posted to every subscriber, later ones to none;
    * `forwardsAll_iff` — a batch is forwarded in full iff it has one buffer, or
      no registered subscriber has room for a second. -/

namespace JrtcForward

open JrtcStreamId JrtcRouterLookup JrtcReqTable JrtcAppQueue JrtcRouter Runs

/-- The router when the outer loop has processed `i` buffers of the batch. -/
def loopAt (st : RouterCtx) (sid : StreamId) (bufs : List BufPtr) (i : Nat) :
    RouterCtx :=
  (forwardLoop sid (forwardStart st sid) (bufs.take i)).1

/-- The entries queued for an app. -/
def ringOf (st : RouterCtx) (a : AppId) : List DataEntry :=
  match st.ctx a with
  | none => []
  | some dapp => dapp.queue.queue.entries

/-- An app is registered under the id, with a free mbuf and ring space. -/
def CanTake (st : RouterCtx) (a : AppId) : Prop :=
  ∃ dapp, st.ctx a = some dapp ∧ dapp.queue.queue.free ≠ []
    ∧ dapp.queue.queue.ring.length < dapp.queue.queue.size - 1

/-- What forwarding a batch is to do: every subscriber that can take a buffer
    when its turn comes gets one entry for it at the end of its ring, nobody
    else's ring changes, and every buffer is released once. -/
structure ForwardsAll (st : RouterCtx) (sid : StreamId) (bufs : List BufPtr) :
    Prop where
  delivered : ∀ i (hi : i < bufs.length) a, a ∈ lookupResult st.reqs sid →
    CanTake (loopAt st sid bufs i) a →
    ringOf (loopAt st sid bufs (i + 1)) a
      = ringOf (loopAt st sid bufs i) a ++ [⟨bufs[i], sid⟩]
  others : ∀ i, i < bufs.length → ∀ a,
    ¬ (a ∈ lookupResult st.reqs sid ∧ CanTake (loopAt st sid bufs i) a) →
    ringOf (loopAt st sid bufs (i + 1)) a = ringOf (loopAt st sid bufs i) a
  released : (forwardMsgs true st sid bufs).io.released = st.io.released ++ bufs

/-- No registered app with a matching request has more than one free mbuf. -/
def RoomForOne (st : RouterCtx) (sid : StreamId) : Prop :=
  ∀ r a dapp, Matches r sid → a ∈ subscribers st.reqs r → st.ctx a = some dapp →
    dapp.queue.queue.free.length ≤ 1

-- ── The loop, one buffer at a time ────────────────────────────────────────────

theorem forwardLoop_take_succ (sid : StreamId) (loop : RouterCtx × List AppId)
    {bufs : List BufPtr} {i : Nat} (hi : i < bufs.length) :
    forwardLoop sid loop (bufs.take (i + 1))
      = forwardBuf sid (forwardLoop sid loop (bufs.take i)) bufs[i] := by
  rw [List.take_succ_eq_append_getElem hi, forwardLoop, List.foldl_append]
  rfl

/-- **ONLY THE FIRST BUFFER IS OFFERED**: from one buffer to the next, a context
    is posted to iff it is the first buffer and the app subscribes. -/
theorem ctx_loopAt_succ (st : RouterCtx) (sid : StreamId) {bufs : List BufPtr}
    {i : Nat} (hi : i < bufs.length) (a : AppId) :
    (loopAt st sid bufs (i + 1)).ctx a
      = if i = 0 ∧ a ∈ lookupResult st.reqs sid
        then ((loopAt st sid bufs i).ctx a).map (·.post ⟨bufs[i], sid⟩)
        else (loopAt st sid bufs i).ctx a := by
  rw [loopAt, forwardLoop_take_succ sid _ hi]
  show (deliverAll sid bufs[i] _ _).1.ctx a = _
  by_cases h0 : i = 0
  · subst h0
    refine (ctx_deliverAll sid _ (bitmapIterator_nodup _) _ a).trans ?_
    simp only [true_and]
    exact if_congr mem_bitmapIterator rfl rfl
  · have htake : bufs.take i ≠ [] := by
      rw [Ne, List.take_eq_nil_iff]
      rintro (h | h)
      · exact h0 h
      · rw [h] at hi
        exact Nat.not_lt_zero _ hi
    rw [iter_forwardLoop sid _ htake, if_neg (fun h => h0 h.1)]
    rfl

/-- After the first buffer the registry does not change any more. -/
theorem ctx_loopAt (st : RouterCtx) (sid : StreamId) {bufs : List BufPtr} {i : Nat}
    (hi : i < bufs.length) : (loopAt st sid bufs (i + 1)).ctx
      = (loopAt st sid bufs 1).ctx := by
  induction i with
  | zero => rfl
  | succ i ih =>
      funext a
      rw [ctx_loopAt_succ st sid hi a, if_neg (fun h => Nat.succ_ne_zero i h.1),
        ih (Nat.lt_of_succ_lt hi)]

theorem ringOf_congr {st st' : RouterCtx} {a : AppId} (h : st'.ctx a = st.ctx a) :
    ringOf st' a = ringOf st a := by
  rw [ringOf, ringOf, h]

/-- A post reaches the ring iff the app can take it. -/
theorem ringOf_post {st st' : RouterCtx} {a : AppId} {e : DataEntry}
    (h : st'.ctx a = (st.ctx a).map (·.post e)) :
    (CanTake st a → ringOf st' a = ringOf st a ++ [e])
      ∧ (¬ CanTake st a → ringOf st' a = ringOf st a) := by
  rw [ringOf, ringOf, h, CanTake]
  cases st.ctx a with
  | none => exact ⟨fun ⟨_, hd, _⟩ => (nomatch hd), fun _ => rfl⟩
  | some dapp =>
      constructor
      · rintro ⟨_, ⟨⟩, hfree, -⟩
        exact dapp.queue.wf.post_entries hfree e
      · intro hno
        have hfree : dapp.queue.queue.free = [] := by
          by_contra hne
          exact hno ⟨dapp, rfl, hne, dapp.queue.wf.room hne⟩
        show (dapp.queue.queue.post e).entries = dapp.queue.queue.entries
        rw [AppQueue.post_of_exhausted hfree]

theorem released_deliverAll (sid : StreamId) (buf : BufPtr) (st : RouterCtx)
    (iter : List AppId) :
    (deliverAll sid buf st iter).1.io.released = st.io.released := by
  induction iter generalizing st with
  | nil => rfl
  | cons a iter ih =>
      rw [deliverAll, ih]
      rcases deliver_cases sid buf st a with ⟨heq, -⟩ | ⟨dapp, -, -, heq⟩
      · rw [heq]
      · rw [heq]
        rfl

/-- The outer loop releases the buffers of the batch in order, once each. -/
theorem released_forwardLoop (sid : StreamId) (loop : RouterCtx × List AppId)
    (bufs : List BufPtr) :
    (forwardLoop sid loop bufs).1.io.released = loop.1.io.released ++ bufs := by
  induction bufs generalizing loop with
  | nil => exact (List.append_nil _).symm
  | cons buf bufs ih =>
      have hone : (forwardBuf sid loop buf).1.io.released = loop.1.io.released ++ [buf] :=
        congrArg (· ++ [buf]) (released_deliverAll sid buf loop.1 loop.2)
      rw [forwardLoop, List.foldl_cons, ← forwardLoop, ih, hone, List.append_assoc]
      rfl

theorem released_forwardMsgs (st : RouterCtx) (sid : StreamId) (bufs : List BufPtr) :
    (forwardMsgs true st sid bufs).io.released = st.io.released ++ bufs := by
  cases bufs with
  | nil => exact (List.append_nil _).symm
  | cons buf bufs => exact released_forwardLoop sid (forwardStart st sid) (buf :: bufs)

/-- Forwarding is the outer loop, run to the end of the batch. -/
theorem forwardMsgs_eq_loopAt (st : RouterCtx) (sid : StreamId) (buf : BufPtr)
    (bufs : List BufPtr) : forwardMsgs true st sid (buf :: bufs)
      = loopAt st sid (buf :: bufs) (bufs.length + 1) := by
  rw [loopAt, List.take_of_length_le (Nat.le_of_eq List.length_cons)]
  rfl

/-- Forwarding reaches nobody outside the look-up result. -/
theorem ringOf_forwardMsgs (st : RouterCtx) (sid : StreamId) (bufs : List BufPtr)
    {a : AppId} (ha : a ∉ lookupResult st.reqs sid) :
    ringOf (forwardMsgs true st sid bufs) a = ringOf st a := by
  cases bufs with
  | nil => rfl
  | cons buf bufs =>
      have hlen : bufs.length < (buf :: bufs).length := Nat.lt_succ_self _
      refine ringOf_congr ?_
      rw [forwardMsgs_eq_loopAt, ctx_loopAt st sid hlen, ctx_loopAt_succ st sid (Nat.succ_pos _),
        if_neg fun h => ha h.2]
      rfl

-- ── When a batch is forwarded in full ─────────────────────────────────────────

/-- The room a subscriber has left after the first buffer. -/
theorem canTake_loopAt_one {st : RouterCtx} {sid : StreamId} {bufs : List BufPtr}
    (hbufs : 0 < bufs.length) {a : AppId} (ha : a ∈ lookupResult st.reqs sid) :
    CanTake (loopAt st sid bufs 1) a
      ↔ ∃ dapp, st.ctx a = some dapp ∧ 2 ≤ dapp.queue.queue.free.length := by
  have hctx : (loopAt st sid bufs 1).ctx a = (st.ctx a).map (·.post ⟨bufs[0], sid⟩) := by
    rw [ctx_loopAt_succ st sid hbufs, if_pos ⟨rfl, ha⟩]
    rfl
  have htail : ∀ l : List Mbuf, l.tail ≠ [] ↔ 2 ≤ l.length := by
    intro l
    rw [← List.length_pos_iff, List.length_tail]
    omega
  rw [CanTake, hctx]
  constructor
  · rintro ⟨dapp', hd, hfree, -⟩
    obtain ⟨dapp, hst, rfl⟩ := Option.map_eq_some_iff.mp hd
    refine ⟨dapp, hst, (htail _).mp ?_⟩
    rw [← dapp.queue.wf.post_free ⟨bufs[0], sid⟩]
    exact hfree
  · rintro ⟨dapp, hst, hlen⟩
    have hfree : (dapp.post ⟨bufs[0], sid⟩).queue.queue.free ≠ [] := by
      show (dapp.queue.queue.post ⟨bufs[0], sid⟩).free ≠ []
      rw [dapp.queue.wf.post_free]
      exact (htail _).mpr hlen
    exact ⟨_, by rw [hst]; rfl, hfree, (dapp.post ⟨bufs[0], sid⟩).queue.wf.room hfree⟩

/-- A second buffer that a subscriber could take is not delivered to it. -/
theorem not_forwardsAll_of_room {st : RouterCtx} {sid : StreamId} {bufs : List BufPtr}
    (hbufs : 2 ≤ bufs.length) {a : AppId} (ha : a ∈ lookupResult st.reqs sid)
    {dapp : DappCtx} (hctx : st.ctx a = some dapp)
    (hroom : 2 ≤ dapp.queue.queue.free.length) : ¬ ForwardsAll st sid bufs := by
  intro h
  have htake : CanTake (loopAt st sid bufs 1) a :=
    (canTake_loopAt_one (Nat.lt_of_lt_of_le Nat.two_pos hbufs) ha).mpr ⟨dapp, hctx, hroom⟩
  have happ := h.delivered 1 hbufs a ha htake
  rw [ringOf_congr (congrFun (ctx_loopAt st sid hbufs) a)] at happ
  exact absurd (congrArg List.length happ) (by simp)

/-- **WHEN A BATCH IS FORWARDED IN FULL.**  In any state, for any message and any
    batch: iff it has at most one buffer, or no registered subscriber has room
    for a second. -/
theorem forwardsAll_iff (st : RouterCtx) (sid : StreamId) (bufs : List BufPtr) :
    ForwardsAll st sid bufs ↔ bufs.length ≤ 1 ∨ RoomForOne st sid := by
  constructor
  · intro h
    by_contra hno
    obtain ⟨hlen, hroom⟩ := not_or.mp hno
    simp only [RoomForOne, not_forall] at hroom
    obtain ⟨r, a, dapp, hm, hsub, hctx, hfree⟩ := hroom
    exact not_forwardsAll_of_room (by omega)
      ((mem_lookupResult st.reqs sid a).mpr ⟨r, hm, hsub⟩) hctx (by omega) h
  · intro hcond
    -- past the first buffer nobody who subscribes can take anything
    have hlater : ∀ i, i + 1 < bufs.length → ∀ a, a ∈ lookupResult st.reqs sid →
        ¬ CanTake (loopAt st sid bufs (i + 1)) a := by
      intro i hi a ha htake
      have hroom := hcond.resolve_left (by omega)
      obtain ⟨r, hm, hsub⟩ := (mem_lookupResult st.reqs sid a).mp ha
      rw [CanTake, ctx_loopAt st sid (Nat.lt_of_succ_lt hi)] at htake
      obtain ⟨dapp, hctx, hlen⟩ := (canTake_loopAt_one (by omega) ha).mp htake
      have hone := hroom r a dapp hm hsub hctx
      omega
    refine ⟨?_, ?_, released_forwardMsgs st sid bufs⟩
    · intro i hi a ha htake
      cases i with
      | zero =>
          have hpost := ctx_loopAt_succ st sid hi a
          rw [if_pos ⟨rfl, ha⟩] at hpost
          exact (ringOf_post hpost).1 htake
      | succ i => exact absurd htake (hlater i hi a ha)
    · intro i hi a hno
      have hpost := ctx_loopAt_succ st sid hi a
      by_cases hfirst : i = 0 ∧ a ∈ lookupResult st.reqs sid
      · rw [if_pos hfirst] at hpost
        exact (ringOf_post hpost).2 fun htake => hno ⟨hfirst.2, htake⟩
      · rw [if_neg hfirst] at hpost
        exact ringOf_congr hpost

/-- An app registers with a queue of two, subscribes to a stream, and two buffers
    of the stream arrive together. -/
theorem second_buffer_not_forwarded :
    ¬ ∀ tr w, Run RouterStep World.init tr w → ∀ sid bufs, bufs ≠ [] →
      ForwardsAll w.router sid bufs := by
  intro h
  obtain ⟨tr, w, hrun, -, hctx, hlook, -⟩ :=
    subscribed_run (n := 2) (by decide) (Vector.replicate 16 0)
  exact not_forwardsAll_of_room (by decide) hlook hctx (by decide)
    (h tr w hrun (Vector.replicate 16 0) [1, 2] (by decide))

end JrtcForward
