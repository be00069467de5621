import JrtController.StreamIdProofs
import JrtController.RunProofs
import Mathlib.Data.Nat.Size

/-! # The queue of one app

    An app's queue is a ring of pointers into a pool of `app_queue_size` mbufs.
    The router thread takes an mbuf, fills it field by field and enqueues it; the
    app's thread dequeues a pointer, copies the entry out and returns the mbuf.
    Neither side holds a lock, and the result of the enqueue is not looked at.

    * `ringSize_eq`, `lt_ringSize` — the ring has the next power of two, which leaves
      room for every mbuf of the pool;
    * `QueueSys.mbufs_perm` — a step of either thread only moves mbufs between
      the pool, the ring and the two threads;
    * `QueueSys.inv_run` — along every interleaving the accepted entries are, in
      order, those returned, those being copied, those in the ring and the one
      being written;
    * `fifo_without_loss` — so no enqueue fails and what the receive calls return
      is a prefix of what was accepted;
    * `post_run`, `receiveRing_run` — the two loops run alone are the functions
      `post` and `receiveRing` on a queue, which keep a `RegisteredQueue` well
      formed. -/

namespace JrtcAppQueue

open JrtcStreamId Runs

/-- `jbpf_channel_buf_ptr`. -/
abbrev BufPtr := Nat

/-- A pointer to an mbuf of the pool. -/
abbrev Mbuf := Nat

/-- `jrtc_router_data_entry_t`. -/
structure DataEntry where
  data     : BufPtr
  streamId : StreamId
  deriving DecidableEq

/-- `JRTC_ROUTER_MAX_APP_QUEUE_SIZE`. -/
def maxAppQueueSize : Nat := 10000

/-- `round_up_pow_of_two`, on a `uint32_t`. -/
def roundUpPowOfTwo (x : BitVec 32) : BitVec 32 :=
  let v := x - 1
  let v := v ||| (v >>> 1)
  let v := v ||| (v >>> 2)
  let v := v ||| (v >>> 4)
  let v := v ||| (v >>> 8)
  let v := v ||| (v >>> 16)
  v + 1

/-- The size `ck_ring_init` is given for a queue of `appQueueSize` entries. -/
def ringSize (appQueueSize : Nat) : Nat :=
  (roundUpPowOfTwo (BitVec.ofNat 32 (appQueueSize + 1))).toNat

/-- The ring and the pool of an app. -/
structure AppQueue where
  /-- the mbufs the pool can still hand out -/
  free : List Mbuf
  /-- the data areas of the mbufs -/
  mem  : Mbuf → DataEntry
  /-- the ring, oldest pointer first -/
  ring : List Mbuf
  /-- the size the ring was initialised with -/
  size : Nat

namespace AppQueue

/-- The pool hands out `m`. -/
def take (q : AppQueue) (m : Mbuf) : AppQueue := { q with free := q.free.erase m }

/-- `jbpf_mbuf_alloc`. -/
def mbufAlloc (q : AppQueue) : Option (Mbuf × AppQueue) :=
  match q.free with
  | [] => none
  | m :: _ => some (m, q.take m)

/-- `data_entry->data = ptr`. -/
def setData (q : AppQueue) (m : Mbuf) (ptr : BufPtr) : AppQueue :=
  { q with mem := Function.update q.mem m { q.mem m with data := ptr } }

/-- `data_entry->stream_id = *sid`. -/
def setStreamId (q : AppQueue) (m : Mbuf) (sid : StreamId) : AppQueue :=
  { q with mem := Function.update q.mem m { q.mem m with streamId := sid } }

/-- `ck_ring_enqueue_spsc`: one slot of the ring always stays empty. -/
def enqueueSpsc (q : AppQueue) (m : Mbuf) : Bool × AppQueue :=
  if q.ring.length < q.size - 1 then (true, { q with ring := q.ring ++ [m] })
  else (false, q)

/-- `ck_ring_dequeue_spsc`. -/
def dequeueSpsc (q : AppQueue) : Option (Mbuf × AppQueue) :=
  match q.ring with
  | [] => none
  | m :: rest => some (m, { q with ring := rest })

/-- `jbpf_mbuf_free_from_data_ptr`. -/
def mbufFree (q : AppQueue) (m : Mbuf) : AppQueue := { q with free := m :: q.free }

/-- The queued entries, oldest first. -/
def entries (q : AppQueue) : List DataEntry := q.ring.map q.mem

theorem dequeueSpsc_eq_some {q q' : AppQueue} {m : Mbuf} :
    q.dequeueSpsc = some (m, q')
      ↔ ∃ rest, q.ring = m :: rest ∧ q' = { q with ring := rest } := by
  unfold dequeueSpsc
  cases q.ring with
  | nil => simp
  | cons m' rest =>
      constructor
      · intro h
        obtain ⟨rfl, rfl⟩ := Prod.mk.inj (Option.some.inj h)
        exact ⟨rest, rfl, rfl⟩
      · rintro ⟨rest', hring, rfl⟩
        obtain ⟨rfl, rfl⟩ := List.cons.inj hring
        rfl

theorem enqueueSpsc_of_lt {q : AppQueue} (h : q.ring.length < q.size - 1) (m : Mbuf) :
    q.enqueueSpsc m = (true, { q with ring := q.ring ++ [m] }) :=
  if_pos h

end AppQueue

-- ── The ring size ─────────────────────────────────────────────────────────────

/-- A value has the bit at each place from which the other has one among the next `m`. -/
def Smeared (m : Nat) (v v' : BitVec 32) : Prop :=
  ∀ j, v'.getLsbD j = true ↔ ∃ i < m, v.getLsbD (j + i) = true

theorem smeared_one (v : BitVec 32) : Smeared 1 v v := by
  intro j
  constructor
  · exact fun h => ⟨0, Nat.one_pos, h⟩
  · rintro ⟨i, hi, h⟩
    obtain rfl : i = 0 := by omega
    exact h

/-- Each step doubles how far a bit is smeared. -/
theorem Smeared.or_ushiftRight {m : Nat} {v v' : BitVec 32} (h : Smeared m v v') :
    Smeared (m + m) v (v' ||| (v' >>> m)) := by
  intro j
  rw [BitVec.getLsbD_or, Bool.or_eq_true, BitVec.getLsbD_ushiftRight, h, h]
  constructor
  · rintro (⟨i, hi, hbit⟩ | ⟨i, hi, hbit⟩)
    · exact ⟨i, by omega, hbit⟩
    · refine ⟨m + i, by omega, ?_⟩
      rwa [← Nat.add_assoc, Nat.add_comm j m]
  · rintro ⟨i, hi, hbit⟩
    by_cases him : i < m
    · exact Or.inl ⟨i, him, hbit⟩
    · refine Or.inr ⟨i - m, by omega, ?_⟩
      rwa [show m + j + (i - m) = j + i by omega]

/-- Smeared over the whole word, a number has all bits below its size. -/
theorem Smeared.toNat_eq {n : Nat} {v : BitVec 32} (h : Smeared 32 (BitVec.ofNat 32 n) v)
    (hn : n < 2 ^ 32) : v.toNat = 2 ^ n.size - 1 := by
  refine Nat.eq_of_testBit_eq fun j => Bool.eq_iff_iff.mpr ?_
  rw [Nat.testBit_two_pow_sub_one, decide_eq_true_eq, Nat.lt_size, BitVec.testBit_toNat, h]
  constructor
  · rintro ⟨i, -, hbit⟩
    rw [BitVec.getLsbD_ofNat, Bool.and_eq_true] at hbit
    have hle : 2 ^ j ≤ 2 ^ (j + i) := Nat.pow_le_pow_right Nat.two_pos (Nat.le_add_right j i)
    exact hle.trans (Nat.ge_two_pow_of_testBit hbit.2)
  · intro hle
    obtain ⟨i, hji, hbit⟩ := Nat.exists_ge_and_testBit_of_ge_two_pow hle
    have hi : i < 32 := by
      have hlt := (Nat.ge_two_pow_of_testBit hbit).trans_lt hn
      exact (Nat.pow_lt_pow_iff_right Nat.one_lt_two).mp hlt
    refine ⟨i - j, by omega, ?_⟩
    rw [BitVec.getLsbD_ofNat, Nat.add_sub_cancel' hji, hbit, Bool.and_true]
    exact decide_eq_true hi

/-- **THE SIZE OF THE RING** is the least power of two above the size of the queue. -/
theorem ringSize_eq {n : Nat} (h : n ≤ maxAppQueueSize) : ringSize n = 2 ^ n.size := by
  have hn : n < 2 ^ 14 := lt_of_le_of_lt h (by decide)
  have hpred : BitVec.ofNat 32 (n + 1) - 1 = BitVec.ofNat 32 n := by
    rw [BitVec.ofNat_add]
    exact BitVec.add_sub_cancel _ _
  have hsmear := (((((smeared_one (BitVec.ofNat 32 n)).or_ushiftRight).or_ushiftRight
    ).or_ushiftRight).or_ushiftRight).or_ushiftRight
  have hv := hsmear.toNat_eq (hn.trans (by decide))
  have hpow : 2 ^ n.size ≤ 2 ^ 14 := Nat.pow_le_pow_right Nat.two_pos (Nat.size_le.mpr hn)
  have hpos := Nat.two_pow_pos n.size
  unfold ringSize roundUpPowOfTwo
  rw [hpred]
  show (_ + 1#32).toNat = _
  rw [BitVec.toNat_add, hv, Nat.mod_eq_of_lt]
  · exact Nat.sub_add_cancel hpos
  · show 2 ^ n.size - 1 + 1 < 2 ^ 32
    omega

/-- **THE RING IS LARGER THAN THE POOL**: a queue size the router accepts is
    rounded up to a ring with at least one slot to spare. -/
theorem lt_ringSize {n : Nat} (h : n ≤ maxAppQueueSize) : n < ringSize n := by
  rw [ringSize_eq h]
  exact Nat.lt_size_self n

/-! ## Two threads on one queue -/

/-- Where the router thread is in the body of its inner loop, with the mbuf it
    holds and the entry it is writing. -/
inductive Producer where
  | idle
  | allocated (m : Mbuf) (e : DataEntry)
  | dataSet   (m : Mbuf) (e : DataEntry)
  | filled    (m : Mbuf) (e : DataEntry)

/-- Where the app's thread is in the ring loop of `jrtc_router_receive`, with
    the number of entries it may still add. -/
inductive Consumer where
  | idle
  | polling  (left : Nat)
  | dequeued (m : Mbuf) (left : Nat)
  | copied   (m : Mbuf) (left : Nat)

structure QueueSys where
  queue    : AppQueue
  producer : Producer
  consumer : Consumer
  /-- history: the entries whose mbuf allocation succeeded, oldest first -/
  accepted : List DataEntry
  /-- `data_entries[0 .. entries_added)` of the running receive call -/
  batch    : List DataEntry
  /-- history: what the finished receive calls returned -/
  returned : List (List DataEntry)

/-- What the scheduler and the callers choose. -/
inductive QueueEvent where
  | alloc (m : Mbuf) (e : DataEntry)
  | allocFails (e : DataEntry)
  | setData
  | setStreamId
  | enqueue
  | receive (numEntries : Nat)
  | dequeue
  | copy
  | free
  | ret

/-- One step of either thread.  The pool may hand out any free mbuf, and may
    refuse at any time. -/
inductive QueueStep : QueueSys → QueueEvent → QueueSys → Prop
  | alloc {s : QueueSys} {m : Mbuf} {e : DataEntry} :
      s.producer = .idle → m ∈ s.queue.free →
      QueueStep s (.alloc m e) { s with
        queue := s.queue.take m, producer := .allocated m e,
        accepted := s.accepted ++ [e] }
  | allocFails {s : QueueSys} {e : DataEntry} :
      s.producer = .idle → QueueStep s (.allocFails e) s
  | setData {s : QueueSys} {m : Mbuf} {e : DataEntry} :
      s.producer = .allocated m e →
      QueueStep s .setData { s with
        queue := s.queue.setData m e.data, producer := .dataSet m e }
  | setStreamId {s : QueueSys} {m : Mbuf} {e : DataEntry} :
      s.producer = .dataSet m e →
      QueueStep s .setStreamId { s with
        queue := s.queue.setStreamId m e.streamId, producer := .filled m e }
  -- the flag of the enqueue is dropped, as in the source
  | enqueue {s : QueueSys} {m : Mbuf} {e : DataEntry} :
      s.producer = .filled m e →
      QueueStep s .enqueue { s with
        queue := (s.queue.enqueueSpsc m).2, producer := .idle }
  | receive {s : QueueSys} {numEntries : Nat} :
      s.consumer = .idle →
      QueueStep s (.receive numEntries) { s with consumer := .polling numEntries }
  | dequeue {s : QueueSys} {left : Nat} {m : Mbuf} {q : AppQueue} :
      s.consumer = .polling (left + 1) → s.queue.dequeueSpsc = some (m, q) →
      QueueStep s .dequeue { s with queue := q, consumer := .dequeued m left }
  | copy {s : QueueSys} {m : Mbuf} {left : Nat} :
      s.consumer = .dequeued m left →
      QueueStep s .copy { s with
        consumer := .copied m left, batch := s.batch ++ [s.queue.mem m] }
  | free {s : QueueSys} {m : Mbuf} {left : Nat} :
      s.consumer = .copied m left →
      QueueStep s .free { s with
        queue := s.queue.mbufFree m, consumer := .polling left }
  | ret {s : QueueSys} {left : Nat} :
      s.consumer = .polling left → left = 0 ∨ s.queue.dequeueSpsc = none →
      QueueStep s .ret { s with
        consumer := .idle, batch := [], returned := s.returned ++ [s.batch] }

/-- What `jrtc_router_register_app` sets up for an accepted queue size: a pool
    of at most that many distinct mbufs. -/
structure PoolConfig where
  appQueueSize : Nat
  le_max : appQueueSize ≤ maxAppQueueSize
  pool : List Mbuf
  nodup : pool.Nodup
  length_le : pool.length ≤ appQueueSize

/-- A freshly registered queue; the mbufs hold arbitrary bytes. -/
def QueueSys.init (c : PoolConfig) (mem : Mbuf → DataEntry) : QueueSys where
  queue    := ⟨c.pool, mem, [], ringSize c.appQueueSize⟩
  producer := .idle
  consumer := .idle
  accepted := []
  batch    := []
  returned := []

-- ── Where the mbufs are ───────────────────────────────────────────────────────

/-- The mbuf the router thread holds. -/
def Producer.mbufs : Producer → List Mbuf
  | .idle => []
  | .allocated m _ | .dataSet m _ | .filled m _ => [m]

/-- The entry the router thread has accepted and not enqueued yet. -/
def Producer.pending : Producer → List DataEntry
  | .idle => []
  | .allocated _ e | .dataSet _ e | .filled _ e => [e]

/-- What the router thread has written so far. -/
def Producer.Written (mem : Mbuf → DataEntry) : Producer → Prop
  | .idle | .allocated _ _ => True
  | .dataSet m e => (mem m).data = e.data
  | .filled m e => mem m = e

/-- The mbuf the app's thread holds. -/
def Consumer.mbufs : Consumer → List Mbuf
  | .idle | .polling _ => []
  | .dequeued m _ | .copied m _ => [m]

/-- The entry the app's thread has dequeued and not copied yet. -/
def Consumer.pending (mem : Mbuf → DataEntry) : Consumer → List DataEntry
  | .dequeued m _ => [mem m]
  | .idle | .polling _ | .copied _ _ => []

namespace QueueSys

/-- Every mbuf, by who has it. -/
def mbufs (s : QueueSys) : List Mbuf :=
  s.producer.mbufs ++ (s.queue.ring ++ (s.consumer.mbufs ++ s.queue.free))

/-- The invariant of the two threads, over a pool set up from `c`. -/
structure Inv (c : PoolConfig) (s : QueueSys) : Prop where
  conserved : s.mbufs.Perm c.pool
  size      : s.queue.size = ringSize c.appQueueSize
  written   : s.producer.Written s.queue.mem
  history   : s.accepted = s.returned.flatten ++ (s.batch ++
    (s.consumer.pending s.queue.mem ++ (s.queue.entries ++ s.producer.pending)))

variable {c : PoolConfig} {s s' : QueueSys} {l : QueueEvent}

/-- While the router thread holds an mbuf the ring has a slot for it. -/
theorem Inv.room {m : Mbuf} (h : s.Inv c) (hm : s.producer.mbufs = [m]) :
    s.queue.ring.length < s.queue.size - 1 := by
  have hlen := h.conserved.length_eq
  simp only [mbufs, hm, List.length_append, List.length_singleton] at hlen
  have hpool := c.length_le
  have hring := lt_ringSize c.le_max
  have hsize := h.size
  omega

/-- The mbuf the router thread holds is in no other hands. -/
theorem Inv.unshared {m : Mbuf} (h : s.Inv c) (hm : s.producer.mbufs = [m]) :
    m ∉ s.queue.ring ∧ m ∉ s.consumer.mbufs := by
  have hnd := h.conserved.nodup_iff.mpr c.nodup
  rw [mbufs, hm, List.singleton_append, List.nodup_cons] at hnd
  simp only [List.mem_append, not_or] at hnd
  exact ⟨hnd.1.1, hnd.1.2.1⟩

/-- Writing an mbuf that nobody else has changes no queued entry. -/
theorem entries_update {q : AppQueue} {m : Mbuf} (hm : m ∉ q.ring) (e : DataEntry) :
    q.ring.map (Function.update q.mem m e) = q.entries :=
  List.map_congr_left fun m' hm' =>
    Function.update_of_ne (fun h : m' = m => hm (h ▸ hm')) e q.mem

/-- Nor the entry being copied out. -/
theorem pending_update {mem : Mbuf → DataEntry} {k : Consumer} {m : Mbuf}
    (hm : m ∉ k.mbufs) (e : DataEntry) :
    k.pending (Function.update mem m e) = k.pending mem := by
  cases k with
  | dequeued m' left =>
      have hne : m' ≠ m := fun h => hm (by rw [h]; exact List.mem_singleton.mpr rfl)
      show [Function.update mem m e m'] = [mem m']
      rw [Function.update_of_ne hne]
  | idle => rfl
  | polling left => rfl
  | copied m' left => rfl

/-- A step moves mbufs around; none appears and none is lost. -/
theorem mbufs_perm (h : s.Inv c) (hs : QueueStep s l s') : s'.mbufs.Perm s.mbufs := by
  cases hs with
  | @alloc m e hp hm =>
      simp only [mbufs, hp, Producer.mbufs, AppQueue.take, List.nil_append,
        List.singleton_append]
      rw [← List.append_assoc, ← List.append_assoc]
      exact List.perm_middle.symm.trans
        ((List.perm_cons_erase hm).symm.append_left _)
  | allocFails hp => exact List.Perm.refl _
  | setData hp => simp only [mbufs, hp, Producer.mbufs, AppQueue.setData]; rfl
  | setStreamId hp => simp only [mbufs, hp, Producer.mbufs, AppQueue.setStreamId]; rfl
  | @enqueue m e hp =>
      have hroom := h.room (m := m) (by rw [hp]; rfl)
      simp only [mbufs, hp, Producer.mbufs, AppQueue.enqueueSpsc_of_lt hroom,
        List.nil_append, List.append_assoc]
      exact List.perm_middle
  | receive hk => simp only [mbufs, hk, Consumer.mbufs]; rfl
  | @dequeue left m q hk hq =>
      obtain ⟨rest, hring, rfl⟩ := AppQueue.dequeueSpsc_eq_some.mp hq
      simp only [mbufs, hk, hring, Consumer.mbufs, List.nil_append]
      exact List.perm_middle.append_left _
  | copy hk => simp only [mbufs, hk, Consumer.mbufs]; rfl
  | free hk => simp only [mbufs, hk, Consumer.mbufs, AppQueue.mbufFree]; rfl
  | ret hk hdone => simp only [mbufs, hk, Consumer.mbufs]; rfl

-- ── The invariant along a run ─────────────────────────────────────────────────

theorem inv_init (c : PoolConfig) (mem : Mbuf → DataEntry) : (init c mem).Inv c where
  conserved := List.Perm.refl _
  size      := rfl
  written   := trivial
  history   := rfl

/-- The accepted entries stay in order through every step: the steps only move
    the boundaries between returned, copied, queued and being written. -/
theorem inv_step (h : s.Inv c) (hs : QueueStep s l s') : s'.Inv c := by
  have hperm := (mbufs_perm h hs).trans h.conserved
  have hhist := h.history
  cases hs with
  | @alloc m e hp hm =>
      refine ⟨hperm, h.size, trivial, ?_⟩
      simp only [hp, Producer.pending, List.append_nil] at hhist
      simp only [hhist, Producer.pending, List.append_assoc]
      rfl
  | allocFails hp => exact h
  | @setData m e hp =>
      have hm := h.unshared (m := m) (by rw [hp]; rfl)
      refine ⟨hperm, h.size, ?_, ?_⟩
      · show (Function.update s.queue.mem m _ m).data = e.data
        rw [Function.update_self]
      · simp only [hp, Producer.pending] at hhist
        simp only [hhist, AppQueue.setData, AppQueue.entries, entries_update hm.1,
          pending_update hm.2, Producer.pending]
  | @setStreamId m e hp =>
      have hm := h.unshared (m := m) (by rw [hp]; rfl)
      have hdata : (s.queue.mem m).data = e.data := by
        have hw := h.written
        rw [hp] at hw
        exact hw
      refine ⟨hperm, h.size, ?_, ?_⟩
      · show Function.update s.queue.mem m _ m = e
        rw [Function.update_self, hdata]
      · simp only [hp, Producer.pending] at hhist
        simp only [hhist, AppQueue.setStreamId, AppQueue.entries, entries_update hm.1,
          pending_update hm.2, Producer.pending]
  | @enqueue m e hp =>
      have hroom := h.room (m := m) (by rw [hp]; rfl)
      have hmem : s.queue.mem m = e := by
        have hw := h.written
        rw [hp] at hw
        exact hw
      refine ⟨hperm, ?_, trivial, ?_⟩
      · rw [AppQueue.enqueueSpsc_of_lt hroom]
        exact h.size
      · simp only [hp, Producer.pending] at hhist
        simp only [hhist, AppQueue.enqueueSpsc_of_lt hroom, AppQueue.entries,
          List.map_append, List.map_cons, List.map_nil, hmem, Producer.pending,
          List.append_nil]
  | receive hk =>
      refine ⟨hperm, h.size, h.written, ?_⟩
      simp only [hk, Consumer.pending] at hhist
      exact hhist
  | @dequeue left m q hk hq =>
      obtain ⟨rest, hring, rfl⟩ := AppQueue.dequeueSpsc_eq_some.mp hq
      refine ⟨hperm, h.size, h.written, ?_⟩
      simp only [hk, Consumer.pending, AppQueue.entries, hring, List.map_cons,
        List.nil_append, List.cons_append] at hhist
      exact hhist
  | @copy m left hk =>
      refine ⟨hperm, h.size, h.written, ?_⟩
      simp only [hk, Consumer.pending] at hhist
      simp only [hhist, Consumer.pending, List.append_assoc, List.nil_append]
  | free hk =>
      refine ⟨hperm, h.size, h.written, ?_⟩
      simp only [hk, Consumer.pending] at hhist
      exact hhist
  | ret hk hdone =>
      refine ⟨hperm, h.size, h.written, ?_⟩
      simp only [hk, Consumer.pending] at hhist
      simp only [hhist, Consumer.pending, List.flatten_append, List.flatten_cons,
        List.flatten_nil, List.append_nil, List.nil_append, List.append_assoc]

/-- The invariant holds in every state of every interleaving. -/
theorem inv_run {mem : Mbuf → DataEntry} {tr : List (QueueSys × QueueEvent)}
    (h : Run QueueStep (init c mem) tr s) : s.Inv c :=
  h.invariant (inv_init c mem) inv_step

end QueueSys

/-- **FIFO WITHOUT LOSS.**  For every accepted queue size and every interleaving
    of the two threads: the enqueue the router thread is about to make succeeds,
    what the receive calls returned is a prefix of what was accepted, and the
    rest of it is still on its way. -/
theorem fifo_without_loss (c : PoolConfig) (mem : Mbuf → DataEntry)
    {tr : List (QueueSys × QueueEvent)} {s : QueueSys}
    (h : Run QueueStep (.init c mem) tr s) :
    (∀ m e, s.producer = .filled m e → (s.queue.enqueueSpsc m).1 = true)
    ∧ s.returned.flatten <+: s.accepted
    ∧ s.accepted = s.returned.flatten ++ (s.batch ++ (s.consumer.pending s.queue.mem
        ++ (s.queue.entries ++ s.producer.pending))) := by
  have hinv := QueueSys.inv_run h
  refine ⟨?_, ?_, hinv.history⟩
  · intro m e hp
    rw [AppQueue.enqueueSpsc_of_lt (hinv.room (m := m) (by rw [hp]; rfl))]
  · rw [hinv.history]
    exact List.prefix_append _ _

/-! ## One thread at a time

    Where nothing interleaves, the two loop bodies are functions on the queue;
    `post_run` and `receiveRing_run` give the runs they stand for. -/

namespace AppQueue

/-- The body of the forwarding loop on one queue: take an mbuf, fill it, enqueue
    it; nothing happens when the pool is empty. -/
def post (q : AppQueue) (e : DataEntry) : AppQueue :=
  match q.mbufAlloc with
  | none => q
  | some (m, q) => (((q.setData m e.data).setStreamId m e.streamId).enqueueSpsc m).2

/-- The ring loop of `jrtc_router_receive`. -/
def receiveRing (q : AppQueue) : Nat → List DataEntry × AppQueue
  | 0 => ([], q)
  | left + 1 =>
      match q.dequeueSpsc with
      | none => ([], q)
      | some (de, q) =>
          let (es, q') := (q.mbufFree de).receiveRing left
          (q.mem de :: es, q')

end AppQueue

/-- `post` is the router thread's four steps in a row. -/
theorem post_run {s : QueueSys} (hp : s.producer = .idle) {m : Mbuf}
    {rest : List Mbuf} (hfree : s.queue.free = m :: rest) (e : DataEntry) :
    ∃ tr, Run QueueStep s tr
      { s with queue := s.queue.post e, accepted := s.accepted ++ [e] } := by
  have hpost : s.queue.post e
      = ((((s.queue.take m).setData m e.data).setStreamId m e.streamId).enqueueSpsc m).2 := by
    simp only [AppQueue.post, AppQueue.mbufAlloc, hfree]
  have hmem : m ∈ s.queue.free := by simp [hfree]
  have hrun := (((Run.start.next (QueueStep.alloc (e := e) hp hmem)).next
    (QueueStep.setData rfl)).next (QueueStep.setStreamId rfl)).next
    (QueueStep.enqueue rfl)
  rw [hpost, hp]
  exact ⟨_, hrun⟩

/-- The ring loop is a run of the app's thread from where it polls. -/
theorem receiveRing_run_polling (left : Nat) : ∀ {s : QueueSys},
    s.consumer = .polling left → ∃ tr, Run QueueStep s tr { s with
      queue := (s.queue.receiveRing left).2, consumer := .idle, batch := [],
      returned := s.returned ++ [s.batch ++ (s.queue.receiveRing left).1] } := by
  induction left with
  | zero =>
      intro s hk
      rw [AppQueue.receiveRing, List.append_nil]
      exact ⟨_, Run.start.next (.ret hk (Or.inl rfl))⟩
  | succ left ih =>
      intro s hk
      cases hq : s.queue.dequeueSpsc with
      | none =>
          simp only [AppQueue.receiveRing, hq, List.append_nil]
          exact ⟨_, Run.start.next (.ret hk (Or.inr hq))⟩
      | some mq =>
          obtain ⟨m, q⟩ := mq
          have hone := ((Run.start.next (QueueStep.dequeue hk hq)).next
            (QueueStep.copy rfl)).next (QueueStep.free rfl)
          obtain ⟨tr, hrest⟩ := ih (s := { s with
            queue := q.mbufFree m, consumer := .polling left,
            batch := s.batch ++ [q.mem m] }) rfl
          simp only [List.append_assoc, List.singleton_append] at hrest
          simp only [AppQueue.receiveRing, hq]
          exact ⟨_, hone.trans hrest⟩

/-- A receive call with no input channels is a run of the app's thread. -/
theorem receiveRing_run {s : QueueSys} (hk : s.consumer = .idle) (numEntries : Nat) :
    ∃ tr, Run QueueStep s tr { s with
      queue := (s.queue.receiveRing numEntries).2, batch := [],
      returned := s.returned ++ [s.batch ++ (s.queue.receiveRing numEntries).1] } := by
  obtain ⟨tr, hrest⟩ := receiveRing_run_polling numEntries
    (s := { s with consumer := .polling numEntries }) rfl
  rw [hk]
  exact ⟨_, (Run.start.next (QueueStep.receive hk)).trans hrest⟩

/-- A queue of one entry. -/
def oneEntryConfig : PoolConfig := ⟨1, by decide, [7], by decide, by decide⟩

/-- The mbuf of a one-entry queue carries two messages in turn. -/
theorem fifo_without_loss_reused_mbuf :
    ∃ tr s, Run QueueStep
        (.init oneEntryConfig fun _ => ⟨0, Vector.replicate 16 0⟩) tr s
      ∧ s.accepted = [⟨5, Vector.replicate 16 0⟩, ⟨6, Vector.replicate 16 0⟩]
      ∧ s.returned = [[⟨5, Vector.replicate 16 0⟩]]
      ∧ s.returned.flatten <+: s.accepted := by
  have h1 := (post_run
    (s := .init oneEntryConfig fun _ => ⟨0, Vector.replicate 16 0⟩) rfl rfl
    ⟨5, Vector.replicate 16 0⟩).choose_spec
  have h2 := h1.trans (receiveRing_run rfl 2).choose_spec
  have hrun := h2.trans (post_run rfl rfl ⟨6, Vector.replicate 16 0⟩).choose_spec
  exact ⟨_, _, hrun, rfl, rfl, (fifo_without_loss _ _ hrun).2.1⟩

-- ── Queues between two operations ─────────────────────────────────────────────

namespace AppQueue

/-- What holds of a queue while neither thread is inside its loop. -/
structure WellFormed (q : AppQueue) (appQueueSize : Nat) : Prop where
  le_max    : appQueueSize ≤ maxAppQueueSize
  nodup     : (q.ring ++ q.free).Nodup
  length_le : (q.ring ++ q.free).length ≤ appQueueSize
  size_eq   : q.size = ringSize appQueueSize

variable {q : AppQueue} {n : Nat}

/-- A free mbuf comes with a ring slot for it. -/
theorem WellFormed.room (h : q.WellFormed n) (hfree : q.free ≠ []) :
    q.ring.length < q.size - 1 := by
  have hpos := List.length_pos_of_ne_nil hfree
  have hlen := h.length_le
  have hring := lt_ringSize h.le_max
  have hsize := h.size_eq
  rw [List.length_append] at hlen
  omega

theorem post_of_exhausted (hfree : q.free = []) (e : DataEntry) : q.post e = q := by
  simp only [post, mbufAlloc, hfree]

/-- What `post` does while the pool has an mbuf. -/
theorem WellFormed.post_eq (h : q.WellFormed n) {m : Mbuf} {rest : List Mbuf}
    (hfree : q.free = m :: rest) (e : DataEntry) :
    q.post e = { q with
      free := rest, mem := Function.update q.mem m e, ring := q.ring ++ [m] } := by
  have hroom : q.ring.length < q.size - 1 := h.room (by simp [hfree])
  have hmem : Function.update (Function.update q.mem m { q.mem m with data := e.data }) m
      { Function.update q.mem m { q.mem m with data := e.data } m with
        streamId := e.streamId } = Function.update q.mem m e := by
    rw [Function.update_idem, Function.update_self]
  simp only [post, mbufAlloc, hfree, take, setData, setStreamId, hmem,
    List.erase_cons_head]
  exact congrArg Prod.snd (enqueueSpsc_of_lt
    (q := { q with free := rest, mem := Function.update q.mem m e }) hroom m)

theorem WellFormed.not_mem_ring (h : q.WellFormed n) {m : Mbuf} {rest : List Mbuf}
    (hfree : q.free = m :: rest) : m ∉ q.ring := by
  intro hm
  have hdisj := (List.nodup_append'.mp h.nodup).2.2
  exact hdisj hm (by simp [hfree])

/-- The entry goes to the end of the queue. -/
theorem WellFormed.post_entries (h : q.WellFormed n) (hfree : q.free ≠ [])
    (e : DataEntry) : (q.post e).entries = q.entries ++ [e] := by
  obtain ⟨m, rest, hm⟩ := List.exists_cons_of_ne_nil hfree
  rw [h.post_eq hm]
  show (q.ring ++ [m]).map (Function.update q.mem m e) = q.entries ++ [e]
  rw [List.map_append, QueueSys.entries_update (h.not_mem_ring hm), List.map_singleton,
    Function.update_self]

/-- One mbuf fewer is free. -/
theorem WellFormed.post_free (h : q.WellFormed n) (e : DataEntry) :
    (q.post e).free = q.free.tail := by
  cases hfree : q.free with
  | nil => rw [post_of_exhausted hfree, hfree]; rfl
  | cons m rest => rw [h.post_eq hfree]; rfl

theorem WellFormed.post (h : q.WellFormed n) (e : DataEntry) :
    (q.post e).WellFormed n := by
  cases hfree : q.free with
  | nil => rwa [post_of_exhausted hfree]
  | cons m rest =>
      rw [h.post_eq hfree]
      -- the mbuf moves from the front of the pool to the end of the ring
      have hmove : q.ring ++ [m] ++ rest = q.ring ++ q.free := by simp [hfree]
      exact ⟨h.le_max, hmove ▸ h.nodup, hmove ▸ h.length_le, h.size_eq⟩

/-- One round of the ring loop. -/
theorem WellFormed.recycle (h : q.WellFormed n) {m : Mbuf} {rest : List Mbuf}
    (hring : q.ring = m :: rest) :
    ({ q with ring := rest }.mbufFree m).WellFormed n := by
  have hperm : (rest ++ m :: q.free).Perm (q.ring ++ q.free) := by
    rw [hring]
    exact List.perm_middle
  exact ⟨h.le_max, hperm.nodup_iff.mpr h.nodup, hperm.length_eq ▸ h.length_le, h.size_eq⟩

/-- What the ring loop returns is the front of the queue, and the rest stays. -/
theorem receiveRing_entries (q : AppQueue) (left : Nat) :
    (q.receiveRing left).1 ++ (q.receiveRing left).2.entries = q.entries := by
  induction left generalizing q with
  | zero => rfl
  | succ left ih =>
      rw [receiveRing]
      cases hq : q.dequeueSpsc with
      | none => rfl
      | some mq =>
          obtain ⟨m, q'⟩ := mq
          obtain ⟨rest, hring, rfl⟩ := dequeueSpsc_eq_some.mp hq
          have hrest := ih ({ q with ring := rest }.mbufFree m)
          show q.mem m :: (_ ++ _) = q.ring.map q.mem
          rw [hrest, hring]
          rfl

theorem WellFormed.receiveRing (h : q.WellFormed n) (left : Nat) :
    (q.receiveRing left).2.WellFormed n := by
  induction left generalizing q with
  | zero => exact h
  | succ left ih =>
      rw [AppQueue.receiveRing]
      cases hq : q.dequeueSpsc with
      | none => exact h
      | some mq =>
          obtain ⟨m, q'⟩ := mq
          obtain ⟨rest, hring, rfl⟩ := dequeueSpsc_eq_some.mp hq
          exact ih (h.recycle hring)

end AppQueue

/-- The queue of a registered app, which can only be built well formed. -/
structure RegisteredQueue where
  queue        : AppQueue
  appQueueSize : Nat
  wf           : queue.WellFormed appQueueSize

namespace RegisteredQueue

/-- The queue `jrtc_router_register_app` sets up. -/
def fresh (appQueueSize : Nat) (h : appQueueSize ≤ maxAppQueueSize) :
    RegisteredQueue where
  queue := ⟨List.range appQueueSize, fun _ => ⟨0, Vector.replicate 16 0⟩, [],
    ringSize appQueueSize⟩
  appQueueSize := appQueueSize
  wf := ⟨h, List.nodup_range, List.length_range.le, rfl⟩

def post (q : RegisteredQueue) (e : DataEntry) : RegisteredQueue :=
  ⟨q.queue.post e, q.appQueueSize, q.wf.post e⟩

def receiveRing (q : RegisteredQueue) (numEntries : Nat) :
    List DataEntry × RegisteredQueue :=
  ((q.queue.receiveRing numEntries).1,
    ⟨(q.queue.receiveRing numEntries).2, q.appQueueSize, q.wf.receiveRing numEntries⟩)

end RegisteredQueue

end JrtcAppQueue
