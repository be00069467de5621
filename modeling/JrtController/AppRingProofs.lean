import JrtController.AppQueueProofs
import JrtController.RingBufferProofs

/-! # The slots of an app's ring

    `AppQueueProofs` has the ring as a list.  In the code it is a `ck_ring`: two counters
    that only grow, masked to the size the ring was initialised with, over an array that
    `jrtc_router_register_app` allocates for one entry more than the queue has.

    * `RingStep` — the two threads with the ring as it is in the code;
    * `coupled_run`, `same_results` — it does what the list does;
    * `slots_in_buffer_iff` — the slots are those of the array iff the array's size is a
      power of two. -/

namespace JrtcAppRing

open JrtcAppQueue RingBuffers Runs

/-- The system of the two threads, with the ring of the code beside the list. -/
structure RingSys where
  sys  : QueueSys
  ring : Ring 32 Mbuf

/-- `ck_ring_init` sets the mask to the size less one. -/
def RingSys.init (c : PoolConfig) (mem : Mbuf → DataEntry) : RingSys where
  sys := .init c mem
  ring := Ring.init (BitVec.ofNat 32 (ringSize c.appQueueSize - 1))

/-- What a step does to the ring. -/
def RingSys.ringAfter (s : RingSys) : QueueEvent → Ring 32 Mbuf
  | .enqueue =>
    match s.sys.producer with
    | .filled m _ => (s.ring.enqueue m).2
    | _ => s.ring
  | .dequeue =>
    match s.ring.dequeue with
    | some (_, r) => r
    | none => s.ring
  | _ => s.ring

/-- One step of either thread. -/
def RingStep (s : RingSys) (l : QueueEvent) (s' : RingSys) : Prop :=
  QueueStep s.sys l s'.sys ∧ s'.ring = s.ringAfter l

/-- The slot of the array that a step reads or writes. -/
def RingSys.slotUsed (s : RingSys) : QueueEvent → Option (BitVec 32)
  | .enqueue => if s.ring.Full then none else some (s.ring.slot s.ring.tail)
  | .dequeue => some (s.ring.slot s.ring.head)
  | _ => none

/-- A step stays inside the `n + 1` elements of the array. -/
def InBuffer (n : Nat) (s : RingSys) (l : QueueEvent) : Prop :=
  ∀ i, s.slotUsed l = some i → i.toNat < n + 1

/-! ## The ring and the list -/

/-- The ring stands for the list, and its tail counts the entries that were enqueued. -/
structure Coupled (c : PoolConfig) (s : RingSys) : Prop where
  inv   : s.sys.Inv c
  holds : s.ring.Holds c.appQueueSize.size s.sys.queue.ring
  count : s.ring.tail + BitVec.ofNat 32 s.sys.producer.pending.length
    = BitVec.ofNat 32 s.sys.accepted.length

variable {c : PoolConfig} {s s' : RingSys} {l : QueueEvent}

theorem coupled_init (c : PoolConfig) (mem : Mbuf → DataEntry) :
    Coupled c (RingSys.init c mem) := by
  refine ⟨QueueSys.inv_init c mem, Ring.holds_init ?_, rfl⟩
  have hpow : 2 ^ c.appQueueSize.size ≤ 2 ^ 14 :=
    Nat.pow_le_pow_right Nat.two_pos
      (Nat.size_le.mpr (lt_of_le_of_lt c.le_max (by decide)))
  rw [BitVec.toNat_ofNat, ringSize_eq c.le_max, Nat.mod_eq_of_lt (by omega)]

/-- The enqueue finds room. -/
theorem Coupled.enqueue (h : Coupled c s) {m : Mbuf} {e : DataEntry}
    (hp : s.sys.producer = .filled m e) :
    ∃ r, s.ring.enqueue m = (true, r)
      ∧ r.Holds c.appQueueSize.size (s.sys.queue.ring ++ [m]) ∧ r.tail = s.ring.tail + 1
      ∧ s.sys.queue.enqueueSpsc m
        = (true, { s.sys.queue with ring := s.sys.queue.ring ++ [m] }) := by
  have hroom := h.inv.room (m := m) (by rw [hp]; rfl)
  have hlist := AppQueue.enqueueSpsc_of_lt hroom m
  rw [h.inv.size, ringSize_eq c.le_max] at hroom
  rcases h.holds.enqueue m with ⟨hfull, -⟩ | ⟨-, r, heq, hholds, -, htail⟩
  · omega
  · exact ⟨r, heq, hholds, htail, hlist⟩

/-- The dequeue finds what the list has in front. -/
theorem Coupled.dequeue (h : Coupled c s) {m : Mbuf} {q : AppQueue}
    (hdeq : s.sys.queue.dequeueSpsc = some (m, q)) :
    ∃ r, s.ring.dequeue = some (some m, r) ∧ r.Holds c.appQueueSize.size q.ring
      ∧ r.tail = s.ring.tail := by
  obtain ⟨rest, hlist, rfl⟩ := AppQueue.dequeueSpsc_eq_some.mp hdeq
  have hholds := h.holds
  rw [hlist] at hholds
  obtain ⟨r, heq, hrest, -, htail⟩ := hholds.dequeue_cons
  exact ⟨r, heq, hrest, htail⟩

theorem Coupled.holds_step (h : Coupled c s) {sys' : QueueSys} (hstep : QueueStep s.sys l sys') :
    (s.ringAfter l).Holds c.appQueueSize.size sys'.queue.ring := by
  cases hstep with
  | @enqueue m e hp =>
      obtain ⟨r, heq, hholds, -, hlist⟩ := h.enqueue hp
      show (s.ringAfter .enqueue).Holds _ (s.sys.queue.enqueueSpsc m).2.ring
      rw [RingSys.ringAfter, hp, hlist]
      simp only [heq]
      exact hholds
  | dequeue _ hdeq =>
      obtain ⟨r, heq, hholds, -⟩ := h.dequeue hdeq
      rw [RingSys.ringAfter, heq]
      exact hholds
  | alloc => exact h.holds
  | allocFails => exact h.holds
  | setData => exact h.holds
  | setStreamId => exact h.holds
  | receive => exact h.holds
  | copy => exact h.holds
  | free => exact h.holds
  | ret => exact h.holds

/-- An entry counts from the moment its mbuf is allocated. -/
theorem Coupled.count_step (h : Coupled c s) {sys' : QueueSys} (hstep : QueueStep s.sys l sys') :
    (s.ringAfter l).tail + BitVec.ofNat 32 sys'.producer.pending.length
      = BitVec.ofNat 32 sys'.accepted.length := by
  have hcount := h.count
  cases hstep with
  | @enqueue m e hp =>
      obtain ⟨r, heq, -, htail, -⟩ := h.enqueue hp
      rw [RingSys.ringAfter, hp]
      simp only [heq, htail]
      rw [hp] at hcount
      simpa [Producer.pending] using hcount
  | dequeue _ hdeq =>
      obtain ⟨r, heq, -, htail⟩ := h.dequeue hdeq
      rw [RingSys.ringAfter, heq]
      simp only [htail]
      exact hcount
  | @alloc m e hp =>
      rw [hp] at hcount
      show s.ring.tail + 1 = _
      rw [List.length_append, BitVec.ofNat_add, ← hcount]
      simp [Producer.pending]
  | allocFails => exact hcount
  | setData hp =>
      rw [hp] at hcount
      exact hcount
  | setStreamId hp =>
      rw [hp] at hcount
      exact hcount
  | receive => exact hcount
  | copy => exact hcount
  | free => exact hcount
  | ret => exact hcount

theorem coupled_step (h : Coupled c s) (hs : RingStep s l s') : Coupled c s' := by
  obtain ⟨hstep, hring⟩ := hs
  refine ⟨QueueSys.inv_step h.inv hstep, ?_, ?_⟩
  · rw [hring]
    exact h.holds_step hstep
  · rw [hring]
    exact h.count_step hstep

theorem coupled_run {mem : Mbuf → DataEntry} {tr : List (RingSys × QueueEvent)}
    (h : Run RingStep (RingSys.init c mem) tr s) : Coupled c s :=
  h.invariant (coupled_init c mem) fun hc hs => coupled_step hc hs

/-- **THE RING IS THE LIST**: in every state of every run its operations have the results
    that they have on the list. -/
theorem same_results {mem : Mbuf → DataEntry} {tr : List (RingSys × QueueEvent)}
    (h : Run RingStep (RingSys.init c mem) tr s) :
    (∀ m e, s.sys.producer = .filled m e →
        (s.ring.enqueue m).1 = (s.sys.queue.enqueueSpsc m).1)
      ∧ s.ring.dequeue.map Prod.fst = s.sys.queue.dequeueSpsc.map fun x => some x.1 := by
  have hcoupled := coupled_run h
  refine ⟨fun m e hp => ?_, ?_⟩
  · obtain ⟨r, heq, -, -, hlist⟩ := hcoupled.enqueue hp
    rw [heq, hlist]
  · have hholds := hcoupled.holds
    rw [AppQueue.dequeueSpsc]
    cases hlist : s.sys.queue.ring with
    | nil =>
        rw [hlist] at hholds
        rw [hholds.dequeue_nil]
        rfl
    | cons m rest =>
        rw [hlist] at hholds
        obtain ⟨r, heq, -⟩ := hholds.dequeue_cons
        rw [heq]
        rfl

/-! ## The array -/

/-- A slot is below the size of the ring. -/
theorem Coupled.slotUsed_lt (h : Coupled c s) {i : BitVec 32} (hi : s.slotUsed l = some i) :
    i.toNat < 2 ^ c.appQueueSize.size := by
  have hslot : ∀ x, (s.ring.slot x).toNat < 2 ^ c.appQueueSize.size := by
    intro x
    rw [Ring.slot_toNat h.holds.mask]
    exact Nat.mod_lt _ (Nat.two_pow_pos _)
  cases l with
  | enqueue =>
      rw [RingSys.slotUsed] at hi
      split_ifs at hi
      obtain rfl := Option.some.inj hi
      exact hslot _
  | dequeue =>
      obtain rfl := Option.some.inj hi
      exact hslot _
  | _ => cases hi

theorem size_of_succ_eq_pow {n k : Nat} (h : n + 1 = 2 ^ k) : n.size = k := by
  refine le_antisymm (Nat.size_le.mpr (by omega)) ?_
  cases k with
  | zero => exact Nat.zero_le _
  | succ k =>
      refine Nat.lt_size.mpr ?_
      have hpos := Nat.two_pow_pos k
      rw [Nat.pow_succ] at h
      omega

/-- A run on the list is one on the ring. -/
theorem lift_run {s : RingSys} {tr : List (QueueSys × QueueEvent)} {t : QueueSys}
    (h : Run QueueStep s.sys tr t) : ∃ tr' r, Run RingStep s tr' ⟨t, r⟩ := by
  induction h with
  | start => exact ⟨[], s.ring, Run.start⟩
  | @next _ t l t' _ hs ih =>
      obtain ⟨tr', r, hrun⟩ := ih
      exact ⟨_, _, hrun.next ⟨hs, rfl⟩⟩

/-- A queue of `n` entries whose pool has one mbuf. -/
def oneMbuf (n : Nat) (hn : n ≤ maxAppQueueSize) (hpos : 0 < n) : PoolConfig :=
  ⟨n, hn, [0], List.nodup_singleton 0, hpos⟩

/-- Between two messages: nothing is queued and the mbuf is in the pool. -/
structure Between (n : Nat) (messages : Nat) (s : QueueSys) : Prop where
  queue    : ∃ mem, s.queue = ⟨[0], mem, [], ringSize n⟩
  producer : s.producer = .idle
  consumer : s.consumer = .idle
  accepted : s.accepted.length = messages

/-- The mbuf goes through the ring and back. -/
theorem receiveRing_post (mem : Mbuf → DataEntry) {size : Nat} (hsize : 0 < size - 1)
    (e : DataEntry) : ∃ mem', (((⟨[0], mem, [], size⟩ : AppQueue).post e).receiveRing 1).2
      = ⟨[0], mem', [], size⟩ := by
  simp [AppQueue.post, AppQueue.mbufAlloc, AppQueue.take, AppQueue.setData,
    AppQueue.setStreamId, AppQueue.enqueueSpsc, hsize, AppQueue.receiveRing,
    AppQueue.dequeueSpsc, AppQueue.mbufFree]

/-- Any number of messages can be sent and received, one after the other. -/
theorem run_messages {n : Nat} (hn : n ≤ maxAppQueueSize) (hpos : 0 < n) (e : DataEntry)
    (mem : Mbuf → DataEntry) (messages : Nat) : ∃ tr s,
    Run QueueStep (.init (oneMbuf n hn hpos) mem) tr s ∧ Between n messages s := by
  have hsize : 0 < ringSize n - 1 := by
    have hlt := lt_ringSize hn
    omega
  induction messages with
  | zero => exact ⟨[], _, Run.start, ⟨mem, rfl⟩, rfl, rfl, rfl⟩
  | succ messages ih =>
      obtain ⟨tr, s, hrun, ⟨mem', hqueue⟩, hp, hk, hacc⟩ := ih
      have hfree : s.queue.free = [0] := by rw [hqueue]
      obtain ⟨tr₁, hpost⟩ := post_run hp hfree e
      obtain ⟨tr₂, hreceive⟩ := receiveRing_run (s := { s with
        queue := s.queue.post e, accepted := s.accepted ++ [e] }) hk 1
      refine ⟨_, _, (hrun.trans hpost).trans hreceive, ?_, hp, hk, ?_⟩
      · show ∃ mem, ((s.queue.post e).receiveRing 1).2 = _
        rw [hqueue]
        exact receiveRing_post mem' hsize e
      · show (s.accepted ++ [e]).length = _
        rw [List.length_append, hacc, List.length_singleton]

/-- If the ring is larger than the array, the message after the array is used up is written
    past its end. -/
theorem run_past_buffer {n : Nat} (hn : n ≤ maxAppQueueSize) (hpos : 0 < n)
    (hlarge : n + 1 < 2 ^ n.size) (e : DataEntry) (mem : Mbuf → DataEntry) : ∃ tr s,
    Run RingStep (RingSys.init (oneMbuf n hn hpos) mem) tr s ∧ ¬ Meets (InBuffer n) tr := by
  obtain ⟨tr, s, hrun, ⟨mem', hqueue⟩, hp, -, hacc⟩ := run_messages hn hpos e mem (n + 1)
  have hfree : (0 : Mbuf) ∈ s.queue.free := by
    rw [hqueue]
    exact List.mem_singleton_self 0
  have hfilled := ((hrun.next (QueueStep.alloc (e := e) hp hfree)).next
    (QueueStep.setData rfl)).next (QueueStep.setStreamId rfl)
  obtain ⟨tr', r, hlift⟩ :=
    lift_run (s := RingSys.init (oneMbuf n hn hpos) mem) hfilled
  have hcoupled := coupled_run hlift
  -- as many were enqueued as the array has elements
  have htail : r.tail = BitVec.ofNat 32 (n + 1) := by
    have hcount : r.tail + 1 = BitVec.ofNat 32 (s.accepted ++ [e]).length := hcoupled.count
    rw [List.length_append, hacc, BitVec.ofNat_add] at hcount
    exact (BitVec.add_left_inj _).mp hcount
  have hslot : (r.slot r.tail).toNat = n + 1 := by
    have hmax : n + 1 < 2 ^ 32 := lt_of_le_of_lt (Nat.succ_le_succ hn) (by decide)
    rw [Ring.slot_toNat hcoupled.holds.mask, htail, BitVec.toNat_ofNat,
      Nat.mod_eq_of_lt hmax]
    exact Nat.mod_eq_of_lt hlarge
  obtain ⟨r', henqueue, -⟩ := hcoupled.enqueue rfl
  have hroom : ¬ r.Full := by
    intro hfull
    rw [Ring.enqueue, if_pos hfull] at henqueue
    cases henqueue
  have hnext : Run RingStep _ _ ⟨_, _⟩ := hlift.next ⟨QueueStep.enqueue rfl, rfl⟩
  refine ⟨_, _, hnext, fun hmeets => ?_⟩
  have hlast := (meets_snoc.mp hmeets).2 (r.slot r.tail) (if_neg hroom)
  omega

/-- For every pool and in every run the ring of a queue of size `n` uses slots of its array. -/
def SlotsInBuffer (n : Nat) : Prop :=
  ∀ (c : PoolConfig) (mem : Mbuf → DataEntry) (tr : List (RingSys × QueueEvent))
    (s : RingSys), c.appQueueSize = n → Run RingStep (RingSys.init c mem) tr s →
    Meets (InBuffer n) tr

/-- **THE SLOTS ARE INSIDE THE ARRAY** for every pool and every run iff the array's size is a
    power of two: the ring is rounded up to one and the array is not. -/
theorem slots_in_buffer_iff {n : Nat} (hn : n ≤ maxAppQueueSize) :
    SlotsInBuffer n ↔ ∃ k, n + 1 = 2 ^ k := by
  constructor
  · intro h
    by_contra hpow
    have hlarge : n + 1 < 2 ^ n.size :=
      lt_of_le_of_ne (Nat.lt_size_self n) fun heq => hpow ⟨_, heq⟩
    have hpos : 0 < n := Nat.pos_of_ne_zero fun hzero => hpow ⟨0, by rw [hzero]; rfl⟩
    obtain ⟨tr, s, hrun, hmeets⟩ := run_past_buffer hn hpos hlarge
      ⟨0, Vector.replicate 16 0⟩ fun _ => ⟨0, Vector.replicate 16 0⟩
    exact hmeets (h _ _ tr s rfl hrun)
  · rintro ⟨k, hk⟩ c mem tr s rfl hrun
    induction hrun with
    | start => exact meets_nil
    | next hrun hs ih =>
        refine meets_snoc.mpr ⟨ih, fun i hi => ?_⟩
        have hlt := (coupled_run hrun).slotUsed_lt hi
        rwa [size_of_succ_eq_pow hk, ← hk] at hlt

/-- A queue of three entries has an array of four elements. -/
theorem slots_in_buffer_three : SlotsInBuffer 3 :=
  (slots_in_buffer_iff (by decide)).mpr ⟨2, rfl⟩

/-- The queue of the default north-io app has 1000 entries: message 1002 is written past the
    end of its array of 1001 elements. -/
theorem north_io_past_buffer : ¬ SlotsInBuffer 1000 := by
  intro h
  have hsize : 10 ≤ Nat.size 1000 := Nat.lt_size.mpr (by decide)
  have hlarge : 1000 + 1 < 2 ^ Nat.size 1000 :=
    lt_of_lt_of_le (by decide) (Nat.pow_le_pow_right Nat.two_pos hsize)
  obtain ⟨tr, s, hrun, hmeets⟩ := run_past_buffer (n := 1000) (by decide) (by decide) hlarge
    ⟨0, Vector.replicate 16 0⟩ fun _ => ⟨0, Vector.replicate 16 0⟩
  exact hmeets (h _ _ tr s rfl hrun)

end JrtcAppRing
