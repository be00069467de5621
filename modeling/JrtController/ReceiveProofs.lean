import JrtController.LoopProofs
import JrtController.RouterProofs

/-! # `jrtc_router_receive`

    One call fills an array from two sources with one cursor: first the ring of the app,
    then its input channels, of which each gives up at most sixteen buffers.  The cursor
    is an `int`, the size of the array a `size_t`, and a write past the end of an array
    is a fault.

    * `ringLoop_eq`, `inputLoop_eq` — the loops write what `receiveRing` and `tookFrom`
      say, and no further;
    * `receive_eq` — the whole call; `receive_greedy` ties it to the call of the router's
      model, which takes all that is pending;
    * `Conserved`, `conserved_run` — over any number of calls, between which entries are
      posted and sent and channels come and go, every entry is queued or was returned,
      once and under its own stream;
    * `receive_delivers` — both together. -/

namespace JrtcReceive

open JrtcStreamId JrtcAppQueue JrtcRouter Loops Runs

/-! ## The call -/

/-- `struct dapp_channel_ctx` of an input channel, with what `jbpf_io_channel` holds. -/
structure InChannel where
  ioChannel : Nat
  streamId  : StreamId
  /-- the buffers of the channel, oldest first -/
  pending   : List BufPtr
  deriving DecidableEq

/-- The parts of `struct dapp_router_ctx` that a call reads; the input channels are in
    the order in which `ck_ht_next` visits them. -/
structure AppState where
  queue  : AppQueue
  inputs : List InChannel

/-- `JRTC_ROUTER_DATA_BATCH_SIZE`. -/
def dataBatchSize : Nat := 16

/-- What C leaves undefined. -/
inductive Fault where
  /-- a write past the end of an array -/
  | writeOutside
  /-- a pointer that is null or was not written -/
  | wildPointer
  deriving DecidableEq, Repr

/-- `entries_added`, and the caller's array. -/
structure Output where
  added   : BitVec 32
  entries : List DataEntry

/-- `data_entries[entries_added] = e; entries_added++`. -/
def Output.put (o : Output) (e : DataEntry) : Except Fault Output :=
  if o.added.toNat < o.entries.length then
    .ok ⟨o.added + 1, o.entries.set o.added.toNat e⟩
  else .error .writeOutside

/-- `entries_added < num_entries`, compared as `size_t`. -/
def hasRoom (numEntries : BitVec 64) (added : BitVec 32) : Bool :=
  (added.signExtend 64).ult numEntries

theorem length_of_dequeueSpsc {q q' : AppQueue} {m : Mbuf} (h : q.dequeueSpsc = some (m, q')) :
    (q'.mbufFree m).ring.length < q.ring.length := by
  obtain ⟨rest, hring, rfl⟩ := AppQueue.dequeueSpsc_eq_some.mp h
  rw [hring]
  exact Nat.lt_succ_self _

/-- The loop over the ring. -/
def ringLoop (numEntries : BitVec 64) (o : Output) (q : AppQueue) :
    Except Fault (Output × AppQueue) :=
  if hasRoom numEntries o.added then
    match h : q.dequeueSpsc with
    | none => .ok (o, q)
    | some (de, q') =>
        have : (q'.mbufFree de).ring.length < q.ring.length := length_of_dequeueSpsc h
        match o.put (q'.mem de) with
        | .error e => .error e
        | .ok o => ringLoop numEntries o (q'.mbufFree de)
  else .ok (o, q)
termination_by q.ring.length

/-- `nreqs`: the room that is left, as an `int`, or a batch. -/
def nreqs (numEntries : BitVec 64) (added : BitVec 32) : BitVec 32 :=
  let pendingReqs := (numEntries - added.signExtend 64).setWidth 32
  if pendingReqs.slt (BitVec.ofNat 32 dataBatchSize) then pendingReqs
  else BitVec.ofNat 32 dataBatchSize

/-- `jbpf_io_channel_recv_data`: it removes and returns the oldest buffers, as many as
    it likes up to the number asked for. -/
def recvData (count : InChannel → Nat → Nat) (ch : InChannel) (n : Nat) : List BufPtr :=
  (ch.pending.take n).take (count ch n)

/-- A channel after some of its buffers were received. -/
def InChannel.after (ch : InChannel) (got : List BufPtr) : InChannel :=
  { ch with pending := ch.pending.drop got.length }

/-- The loop over the input channels.  `data_ptrs` has room for one batch. -/
def inputLoop (count : InChannel → Nat → Nat) (numEntries : BitVec 64) :
    Output → List InChannel → Except Fault (Output × List InChannel)
  | o, [] => .ok (o, [])
  | o, ch :: chs =>
      if hasRoom numEntries o.added then
        let got := recvData count ch (nreqs numEntries o.added).toNat
        if got.length > dataBatchSize then .error .writeOutside
        else do
          let o ← got.foldlM (fun o p => o.put ⟨p, ch.streamId⟩) o
          let (o, chs) ← inputLoop count numEntries o chs
          pure (o, ch.after got :: chs)
      else .ok (o, ch :: chs)

/-- `jrtc_router_receive`: what it returns, and the array and the app afterwards. -/
def receive (count : InChannel → Nat → Nat) (app : AppState) (dataEntries : List DataEntry)
    (numEntries : BitVec 64) : Except Fault (BitVec 32 × List DataEntry × AppState) := do
  let (o, queue) ← ringLoop numEntries ⟨0, dataEntries⟩ app.queue
  let (o, inputs) ← inputLoop count numEntries o app.inputs
  pure (o.added, o.entries, ⟨queue, inputs⟩)

/-! ## The cursor -/

/-- The entries were written to the front of the array, and the cursor is behind them. -/
structure Wrote (array : List DataEntry) (es : List DataEntry) (o : Output) : Prop where
  added   : o.added.toNat = es.length
  entries : o.entries = es ++ array.drop es.length

variable {array es : List DataEntry} {o : Output} {numEntries : BitVec 64}

theorem wrote_nil (array : List DataEntry) : Wrote array [] ⟨0, array⟩ := ⟨rfl, rfl⟩

theorem Wrote.put (h : Wrote array es o) (hroom : es.length < array.length)
    (hint : es.length < 2 ^ 31) (e : DataEntry) :
    ∃ o', o.put e = .ok o' ∧ Wrote array (es ++ [e]) o' := by
  have hlen : o.added.toNat < o.entries.length := by
    rw [h.added, h.entries, List.length_append, List.length_drop]
    omega
  refine ⟨⟨o.added + 1, o.entries.set o.added.toNat e⟩, if_pos hlen, ?_, ?_⟩
  · show (o.added + 1).toNat = _
    rw [BitVec.toNat_add, h.added, List.length_append]
    show (es.length + 1) % 2 ^ 32 = es.length + 1
    omega
  · show o.entries.set o.added.toNat e = _
    rw [h.entries, h.added, set_behind hroom]

/-- Where the cursor has not left the `int`s, the comparison is that of the numbers. -/
theorem Wrote.hasRoom_iff (h : Wrote array es o) (hint : es.length < 2 ^ 31) :
    hasRoom numEntries o.added = true ↔ es.length < numEntries.toNat := by
  have hmsb : o.added.msb = false := by
    rw [BitVec.msb_eq_false_iff_two_mul_lt, h.added]
    omega
  rw [hasRoom, BitVec.signExtend_eq_setWidth_of_msb_false hmsb, BitVec.ult,
    decide_eq_true_iff, BitVec.toNat_setWidth, h.added, Nat.mod_eq_of_lt (by omega)]

/-- So is the number of entries asked for. -/
theorem Wrote.nreqs_eq (h : Wrote array es o) (hn : numEntries.toNat < 2 ^ 31)
    (hle : es.length ≤ numEntries.toNat) :
    (nreqs numEntries o.added).toNat = min dataBatchSize (numEntries.toNat - es.length) := by
  have hmsb : o.added.msb = false := by
    rw [BitVec.msb_eq_false_iff_two_mul_lt, h.added]
    omega
  have hpending : ((numEntries - o.added.signExtend 64).setWidth 32).toNat
      = numEntries.toNat - es.length := by
    rw [BitVec.signExtend_eq_setWidth_of_msb_false hmsb, BitVec.toNat_setWidth,
      BitVec.toNat_sub, BitVec.toNat_setWidth, h.added]
    omega
  have hslt : ((numEntries - o.added.signExtend 64).setWidth 32).slt
      (BitVec.ofNat 32 dataBatchSize) = decide (numEntries.toNat - es.length < 16) := by
    rw [BitVec.slt_eq_decide, BitVec.toInt_eq_toNat_of_lt (by rw [hpending]; omega), hpending]
    exact decide_eq_decide.mpr Nat.cast_lt
  show (if ((numEntries - o.added.signExtend 64).setWidth 32).slt
      (BitVec.ofNat 32 dataBatchSize) = true then (numEntries - o.added.signExtend 64).setWidth 32
    else BitVec.ofNat 32 dataBatchSize).toNat = min 16 _
  rw [hslt]
  by_cases hlt : numEntries.toNat - es.length < 16
  · rw [if_pos (decide_eq_true hlt), hpending]
    omega
  · rw [if_neg (by rwa [decide_eq_true_iff])]
    show 16 = _
    omega

/-! ## The ring -/

theorem ringLoop_of_full {q : AppQueue} (h : ¬ hasRoom numEntries o.added = true) :
    ringLoop numEntries o q = .ok (o, q) := by
  rw [ringLoop, if_neg h]

theorem ringLoop_of_empty {q : AppQueue} (h : hasRoom numEntries o.added = true)
    (hq : q.dequeueSpsc = none) : ringLoop numEntries o q = .ok (o, q) := by
  rw [ringLoop, if_pos h]
  split
  · rfl
  · rename_i de q' hq'
    rw [hq] at hq'
    cases hq'

theorem ringLoop_of_some {q q' : AppQueue} {de : Mbuf} {o' : Output}
    (h : hasRoom numEntries o.added = true) (hq : q.dequeueSpsc = some (de, q'))
    (hput : o.put (q'.mem de) = .ok o') :
    ringLoop numEntries o q = ringLoop numEntries o' (q'.mbufFree de) := by
  rw [ringLoop, if_pos h]
  split
  · rename_i hq'
    rw [hq] at hq'
    cases hq'
  · rename_i de' q'' hq'
    rw [hq] at hq'
    cases hq'
    rw [hput]

/-- **THE LOOP OVER THE RING** writes what `receiveRing` takes. -/
theorem ringLoop_eq {left : Nat} (h : Wrote array es o) (hn : numEntries.toNat < 2 ^ 31)
    (hsize : numEntries.toNat ≤ array.length) (hleft : es.length + left = numEntries.toNat)
    (q : AppQueue) : ∃ o', ringLoop numEntries o q = .ok (o', (q.receiveRing left).2)
      ∧ Wrote array (es ++ (q.receiveRing left).1) o' := by
  induction left generalizing es o q with
  | zero =>
      refine ⟨o, ringLoop_of_full ?_, (List.append_nil es).symm ▸ h⟩
      rw [h.hasRoom_iff (by omega)]
      omega
  | succ left ih =>
      have hroom : hasRoom numEntries o.added = true :=
        (h.hasRoom_iff (by omega)).mpr (by omega)
      rw [AppQueue.receiveRing]
      cases hq : q.dequeueSpsc with
      | none => exact ⟨o, ringLoop_of_empty hroom hq, (List.append_nil es).symm ▸ h⟩
      | some x =>
          obtain ⟨de, q'⟩ := x
          obtain ⟨o₁, hput, h₁⟩ := h.put (by omega) (by omega) (q'.mem de)
          have hleft₁ : (es ++ [q'.mem de]).length + left = numEntries.toNat := by
            rw [List.length_append, List.length_singleton]
            omega
          obtain ⟨o', hloop, h'⟩ := ih h₁ hleft₁ (q'.mbufFree de)
          refine ⟨o', (ringLoop_of_some hroom hq hput).trans hloop, ?_⟩
          rw [List.append_assoc] at h'
          exact h'

theorem length_receiveRing_le (q : AppQueue) (left : Nat) :
    (q.receiveRing left).1.length ≤ left := by
  induction left generalizing q with
  | zero => exact le_refl 0
  | succ left ih =>
      rw [AppQueue.receiveRing]
      cases q.dequeueSpsc with
      | none => exact Nat.zero_le _
      | some x => exact Nat.succ_le_succ (ih _)

/-- A ring that gave fewer entries than asked for is empty. -/
theorem receiveRing_drains {q : AppQueue} {left : Nat}
    (h : (q.receiveRing left).1.length < left) : (q.receiveRing left).2.entries = [] := by
  induction left generalizing q with
  | zero => exact absurd h (Nat.not_lt_zero _)
  | succ left ih =>
      rw [AppQueue.receiveRing] at h ⊢
      cases hq : q.dequeueSpsc with
      | none =>
          have hring : q.ring = [] := by
            by_contra hne
            obtain ⟨m, rest, hring⟩ := List.exists_cons_of_ne_nil hne
            rw [AppQueue.dequeueSpsc_eq_some.mpr ⟨rest, hring, rfl⟩] at hq
            cases hq
          show q.ring.map q.mem = []
          rw [hring]
          rfl
      | some x =>
          rw [hq] at h
          exact ih (Nat.lt_of_succ_lt_succ h)

/-! ## The input channels -/

/-- What each channel gives up while there is room for `left` more entries. -/
def tookFrom (count : InChannel → Nat → Nat) :
    Nat → List InChannel → List (InChannel × List BufPtr)
  | _, [] => []
  | left, ch :: chs =>
      (ch, recvData count ch (min dataBatchSize left))
        :: tookFrom count (left - (recvData count ch (min dataBatchSize left)).length) chs

/-- The entries made of what a channel gives up. -/
def tagged (x : InChannel × List BufPtr) : List DataEntry :=
  x.2.map fun p => ⟨p, x.1.streamId⟩

variable {count : InChannel → Nat → Nat}

theorem length_recvData_le (ch : InChannel) (n : Nat) : (recvData count ch n).length ≤ n :=
  (List.length_take_le' _ _).trans (List.length_take_le n _)

theorem prefix_recvData (ch : InChannel) (n : Nat) : recvData count ch n <+: ch.pending :=
  (List.take_prefix _ _).trans (List.take_prefix _ _)

theorem tookFrom_zero (chs : List InChannel) :
    tookFrom count 0 chs = chs.map fun ch => (ch, []) := by
  induction chs with
  | nil => rfl
  | cons ch chs ih =>
      have hnone : recvData count ch (min dataBatchSize 0) = [] :=
        List.length_eq_zero_iff.mp (Nat.le_zero.mp (length_recvData_le ch _))
      rw [tookFrom, hnone, List.length_nil, ih]
      rfl

theorem map_fst_tookFrom (left : Nat) (chs : List InChannel) :
    (tookFrom count left chs).map Prod.fst = chs := by
  induction chs generalizing left with
  | nil => rfl
  | cons ch chs ih => rw [tookFrom, List.map_cons, ih]

theorem prefix_of_mem_tookFrom {left : Nat} {chs : List InChannel}
    {x : InChannel × List BufPtr} (hx : x ∈ tookFrom count left chs) :
    x.2 <+: x.1.pending := by
  induction chs generalizing left with
  | nil => exact (List.not_mem_nil hx).elim
  | cons ch chs ih =>
      rcases List.mem_cons.mp hx with rfl | hx
      · exact prefix_recvData ch _
      · exact ih hx

theorem length_flatMap_tookFrom_le (left : Nat) (chs : List InChannel) :
    ((tookFrom count left chs).flatMap tagged).length ≤ left := by
  induction chs generalizing left with
  | nil => exact Nat.zero_le left
  | cons ch chs ih =>
      have hgot : (recvData count ch (min dataBatchSize left)).length ≤ min dataBatchSize left :=
        length_recvData_le ch _
      have hrest := ih (left - (recvData count ch (min dataBatchSize left)).length)
      rw [tookFrom, List.flatMap_cons, List.length_append, tagged, List.length_map]
      show (recvData count ch (min dataBatchSize left)).length + _ ≤ left
      omega

/-- The buffers of one channel, written one after the other. -/
theorem Wrote.putAll (h : Wrote array es o) (sid : StreamId) {got : List BufPtr}
    (hroom : es.length + got.length ≤ array.length)
    (hint : es.length + got.length < 2 ^ 31) :
    ∃ o', got.foldlM (fun o p => o.put ⟨p, sid⟩) o = .ok o'
      ∧ Wrote array (es ++ got.map fun p => ⟨p, sid⟩) o' := by
  induction got generalizing es o with
  | nil => exact ⟨o, rfl, (List.append_nil es).symm ▸ h⟩
  | cons p got ih =>
      rw [List.length_cons] at hroom hint
      obtain ⟨o₁, hput, h₁⟩ := h.put (by omega) (by omega) ⟨p, sid⟩
      obtain ⟨o', hfold, h'⟩ := ih h₁
        (by rw [List.length_append, List.length_singleton]; omega)
        (by rw [List.length_append, List.length_singleton]; omega)
      refine ⟨o', ?_, ?_⟩
      · rw [List.foldlM_cons]
        exact bind_eq_ok_iff.mpr ⟨o₁, hput, hfold⟩
      · rw [List.append_assoc] at h'
        exact h'

/-- **THE LOOP OVER THE CHANNELS** writes what they give up, each under its stream. -/
theorem inputLoop_eq {left : Nat} (h : Wrote array es o) (hn : numEntries.toNat < 2 ^ 31)
    (hsize : numEntries.toNat ≤ array.length) (hleft : es.length + left = numEntries.toNat)
    (chs : List InChannel) : ∃ o', inputLoop count numEntries o chs
        = .ok (o', (tookFrom count left chs).map fun x => x.1.after x.2)
      ∧ Wrote array (es ++ (tookFrom count left chs).flatMap tagged) o' := by
  induction chs generalizing es o left with
  | nil => exact ⟨o, rfl, (List.append_nil es).symm ▸ h⟩
  | cons ch chs ih =>
      rw [inputLoop]
      by_cases hroom : hasRoom numEntries o.added = true
      · have hreqs : (nreqs numEntries o.added).toNat = min dataBatchSize left := by
          rw [h.nreqs_eq hn (by omega)]
          congr 1
          omega
        have hgot : (recvData count ch (min dataBatchSize left)).length
            ≤ min dataBatchSize left := length_recvData_le ch _
        have hbatch : ¬ (recvData count ch (min dataBatchSize left)).length > dataBatchSize := by
          omega
        obtain ⟨o₁, hput, h₁⟩ := @Wrote.putAll _ _ _ h ch.streamId
          (recvData count ch (min dataBatchSize left)) (by omega) (by omega)
        obtain ⟨o', hloop, h'⟩ := @ih _ o₁
          (left - (recvData count ch (min dataBatchSize left)).length) h₁
          (by rw [List.length_append, List.length_map]; omega)
        rw [if_pos hroom, hreqs, if_neg hbatch]
        refine ⟨o', bind_eq_ok_iff.mpr ⟨o₁, hput, bind_eq_ok_iff.mpr ⟨_, hloop, rfl⟩⟩, ?_⟩
        rw [List.append_assoc] at h'
        exact h'
      · -- without room the channels are left alone
        rw [h.hasRoom_iff (by omega)] at hroom
        obtain rfl : left = 0 := by omega
        have hsame : (tookFrom count 0 (ch :: chs)).map (fun x => x.1.after x.2)
            = ch :: chs := by
          rw [tookFrom_zero, List.map_map]
          exact List.map_id (ch :: chs)
        have hnone : (tookFrom count 0 (ch :: chs)).flatMap tagged = [] := by
          rw [tookFrom_zero, List.flatMap_map]
          exact List.flatMap_eq_nil_iff.mpr fun _ _ => rfl
        rw [if_neg (by rw [h.hasRoom_iff (by omega)]; exact hroom), hsame, hnone,
          List.append_nil]
        exact ⟨o, rfl, h⟩

/-! ## The whole call -/

/-- The entries of a call: those of the ring, then those of the channels. -/
def received (count : InChannel → Nat → Nat) (app : AppState) (n : Nat) : List DataEntry :=
  (app.queue.receiveRing n).1
    ++ (tookFrom count (n - (app.queue.receiveRing n).1.length) app.inputs).flatMap tagged

/-- The app after a call. -/
def afterReceive (count : InChannel → Nat → Nat) (app : AppState) (n : Nat) : AppState where
  queue := (app.queue.receiveRing n).2
  inputs := (tookFrom count (n - (app.queue.receiveRing n).1.length) app.inputs).map
    fun x => x.1.after x.2

theorem length_received_le (app : AppState) (n : Nat) :
    (received count app n).length ≤ n := by
  have hring := length_receiveRing_le app.queue n
  have hinputs : ((tookFrom count (n - (app.queue.receiveRing n).1.length)
      app.inputs).flatMap tagged).length ≤ n - (app.queue.receiveRing n).1.length :=
    length_flatMap_tookFrom_le _ _
  rw [received, List.length_append]
  omega

/-- **A CALL** writes the received entries to the front of the array, and returns how
    many there are. -/
theorem receive_eq (app : AppState) {dataEntries : List DataEntry}
    (hn : numEntries.toNat < 2 ^ 31) (hsize : numEntries.toNat ≤ dataEntries.length) :
    ∃ k, receive count app dataEntries numEntries = .ok (k,
        received count app numEntries.toNat
          ++ dataEntries.drop (received count app numEntries.toNat).length,
        afterReceive count app numEntries.toNat)
      ∧ k.toNat = (received count app numEntries.toNat).length := by
  have hring := length_receiveRing_le app.queue numEntries.toNat
  obtain ⟨o₁, hloop₁, h₁⟩ := ringLoop_eq (wrote_nil dataEntries) hn hsize
    (Nat.zero_add numEntries.toNat) app.queue
  obtain ⟨o₂, hloop₂, h₂⟩ := @inputLoop_eq _ _ _ _ count
    (numEntries.toNat - (app.queue.receiveRing numEntries.toNat).1.length) h₁ hn hsize
    (by rw [List.nil_append]; omega) app.inputs
  rw [List.nil_append] at h₂
  refine ⟨o₂.added, bind_eq_ok_iff.mpr ⟨_, hloop₁, bind_eq_ok_iff.mpr ⟨_, hloop₂, ?_⟩⟩,
    h₂.added⟩
  show Except.ok (o₂.added, o₂.entries, _) = _
  rw [h₂.entries]
  rfl

/-- The channels of the router's model, which give up all they can. -/
theorem flatMap_tookFrom_greedy (left : Nat) (chs : List InChannel) :
    (tookFrom (fun _ n => n) left chs).flatMap tagged
      = receiveInputs left (chs.map fun ch => (ch.streamId, ch.pending)) := by
  induction chs generalizing left with
  | nil => rfl
  | cons ch chs ih =>
      rw [List.map_cons, receiveInputs]
      by_cases hleft : left = 0
      · rw [if_pos hleft, hleft, tookFrom_zero, List.flatMap_map]
        exact List.flatMap_eq_nil_iff.mpr fun _ _ => rfl
      · have hmin : min dataBatchSize left = if 16 > left then left else 16 := by
          rw [dataBatchSize]
          split <;> omega
        have hgot : recvData (fun _ n => n) ch (min dataBatchSize left)
            = ch.pending.take (if 16 > left then left else 16) := by
          rw [recvData, List.take_take, min_self, hmin]
        rw [if_neg hleft, tookFrom, List.flatMap_cons, hgot, ih]
        rfl

/-- **THE ROUTER'S MODEL** of the call is the call on channels that give up all they
    can. -/
theorem receive_greedy (dapp : DappCtx) (chs : List InChannel) (n : Nat) :
    received (fun _ n => n) ⟨dapp.queue.queue, chs⟩ n
        = (JrtcRouter.receive dapp n (chs.map fun ch => (ch.streamId, ch.pending))).1
          ++ (JrtcRouter.receive dapp n (chs.map fun ch => (ch.streamId, ch.pending))).2.1
      ∧ (afterReceive (fun _ n => n) ⟨dapp.queue.queue, chs⟩ n).queue
        = (JrtcRouter.receive dapp n
            (chs.map fun ch => (ch.streamId, ch.pending))).2.2.queue.queue := by
  refine ⟨?_, rfl⟩
  rw [received, flatMap_tookFrom_greedy]
  rfl

/-! ## Many calls -/

/-- The entries of a channel that are still to be received. -/
def InChannel.entries (ch : InChannel) : List DataEntry := tagged (ch, ch.pending)

/-- An app, and what became of the entries meant for it. -/
structure ReceiveSys where
  app       : AppState
  /-- the entries the ring was given -/
  accepted  : List DataEntry
  /-- the buffers the channels were given, each under the stream of its channel -/
  sent      : List DataEntry
  /-- the entries the calls returned -/
  returned  : List DataEntry
  /-- the entries of channels that were closed -/
  discarded : List DataEntry

inductive ReceiveLabel where
  | post (e : DataEntry)
  | openChannel (ioChannel : Nat) (streamId : StreamId)
  | send (ioChannel : Nat) (p : BufPtr)
  | closeChannel (ioChannel : Nat)
  /-- the order in which the channels are visited may change -/
  | reorder
  | receive (count : InChannel → Nat → Nat) (dataEntries : List DataEntry)
      (numEntries : BitVec 64)

inductive ReceiveStep : ReceiveSys → ReceiveLabel → ReceiveSys → Prop
  | post {s : ReceiveSys} {e : DataEntry} :
      ReceiveStep s (.post e) { s with
        app := { s.app with queue := s.app.queue.post e }
        accepted := if s.app.queue.free = [] then s.accepted else s.accepted ++ [e] }
  | openChannel {s : ReceiveSys} {ioChannel : Nat} {streamId : StreamId} :
      ReceiveStep s (.openChannel ioChannel streamId) { s with
        app := { s.app with inputs := s.app.inputs ++ [⟨ioChannel, streamId, []⟩] } }
  | send {s : ReceiveSys} {l₁ l₂ : List InChannel} {ch : InChannel} {p : BufPtr} :
      s.app.inputs = l₁ ++ ch :: l₂ →
      ReceiveStep s (.send ch.ioChannel p) { s with
        app := { s.app with
          inputs := l₁ ++ { ch with pending := ch.pending ++ [p] } :: l₂ }
        sent := s.sent ++ [⟨p, ch.streamId⟩] }
  | closeChannel {s : ReceiveSys} {l₁ l₂ : List InChannel} {ch : InChannel} :
      s.app.inputs = l₁ ++ ch :: l₂ →
      ReceiveStep s (.closeChannel ch.ioChannel) { s with
        app := { s.app with inputs := l₁ ++ l₂ }
        discarded := s.discarded ++ ch.entries }
  | reorder {s : ReceiveSys} {inputs : List InChannel} : inputs.Perm s.app.inputs →
      ReceiveStep s .reorder { s with app := { s.app with inputs := inputs } }
  | receive {s : ReceiveSys} {count : InChannel → Nat → Nat}
      {dataEntries dataEntries' : List DataEntry} {numEntries : BitVec 64} {k : BitVec 32}
      {app' : AppState} :
      numEntries.toNat < 2 ^ 31 → numEntries.toNat ≤ dataEntries.length →
      JrtcReceive.receive count s.app dataEntries numEntries = .ok (k, dataEntries', app') →
      ReceiveStep s (.receive count dataEntries numEntries) { s with
        app := app'
        returned := s.returned ++ dataEntries'.take k.toNat }

/-- An app that was just registered. -/
def ReceiveSys.init (q : RegisteredQueue) : ReceiveSys :=
  ⟨⟨q.queue, []⟩, q.queue.entries, [], [], []⟩

/-- Every entry was returned, discarded with its channel or is still queued, as often as
    it was accepted or sent, and under the stream it was meant for. -/
def Conserved (s : ReceiveSys) : Prop :=
  ∀ e, s.returned.count e + s.discarded.count e + s.app.queue.entries.count e
      + (s.app.inputs.flatMap InChannel.entries).count e
    = s.accepted.count e + s.sent.count e

theorem count_tagged (x : InChannel × List BufPtr) (hx : x.2 <+: x.1.pending) (e : DataEntry) :
    (tagged x).count e + (x.1.after x.2).entries.count e = x.1.entries.count e := by
  obtain ⟨rest, hrest⟩ := hx
  have hdrop : (x.1.after x.2).pending = rest := by
    show x.1.pending.drop x.2.length = rest
    rw [← hrest, List.drop_left]
  have hall : x.1.entries = tagged x ++ (x.1.after x.2).entries := by
    rw [InChannel.entries, InChannel.entries, tagged, tagged, tagged, hdrop, ← hrest,
      List.map_append]
    rfl
  rw [hall, List.count_append]

/-- What the channels give up and what they keep is what they had. -/
theorem count_tookFrom (left : Nat) (chs : List InChannel) (e : DataEntry) :
    ((tookFrom count left chs).flatMap tagged).count e
        + (((tookFrom count left chs).map fun x => x.1.after x.2).flatMap
            InChannel.entries).count e
      = (chs.flatMap InChannel.entries).count e := by
  induction chs generalizing left with
  | nil => rfl
  | cons ch chs ih =>
      have hrest := ih (left - (recvData count ch (min dataBatchSize left)).length)
      have hhead : (tagged (ch, recvData count ch (min dataBatchSize left))).count e
          + (ch.after (recvData count ch (min dataBatchSize left))).entries.count e
          = ch.entries.count e :=
        count_tagged (ch, recvData count ch (min dataBatchSize left)) (prefix_recvData ch _) e
      rw [tookFrom, List.map_cons, List.flatMap_cons, List.flatMap_cons, List.flatMap_cons,
        List.count_append, List.count_append, List.count_append]
      show _ + _ + ((ch.after (recvData count ch (min dataBatchSize left))).entries.count e + _)
        = _
      omega

/-- **ONE CALL** moves entries from the queues to the caller. -/
theorem count_received (app : AppState) (n : Nat) (e : DataEntry) :
    (received count app n).count e + (afterReceive count app n).queue.entries.count e
        + ((afterReceive count app n).inputs.flatMap InChannel.entries).count e
      = app.queue.entries.count e + (app.inputs.flatMap InChannel.entries).count e := by
  have hring : (app.queue.receiveRing n).1.count e
      + (app.queue.receiveRing n).2.entries.count e = app.queue.entries.count e := by
    rw [← List.count_append, AppQueue.receiveRing_entries]
  have hinputs : ((tookFrom count (n - (app.queue.receiveRing n).1.length)
        app.inputs).flatMap tagged).count e
      + ((afterReceive count app n).inputs.flatMap InChannel.entries).count e
      = (app.inputs.flatMap InChannel.entries).count e := count_tookFrom _ _ e
  rw [received, List.count_append]
  show _ + (app.queue.receiveRing n).2.entries.count e + _ = _
  omega

theorem conserved_init (q : RegisteredQueue) : Conserved (.init q) := fun e => by
  show 0 + 0 + q.queue.entries.count e + 0 = q.queue.entries.count e + 0
  omega

theorem count_inputs_split (l₁ l₂ : List InChannel) (ch : InChannel) (e : DataEntry) :
    ((l₁ ++ ch :: l₂).flatMap InChannel.entries).count e
      = (l₁.flatMap InChannel.entries).count e + ch.entries.count e
        + (l₂.flatMap InChannel.entries).count e := by
  rw [List.flatMap_append, List.flatMap_cons, List.count_append, List.count_append]
  omega

/-- **EVERY STEP** accounts for the entries it moves. -/
theorem conserved_step {n : Nat} {s s' : ReceiveSys} {l : ReceiveLabel}
    (hwf : s.app.queue.WellFormed n) (h : Conserved s) (hst : ReceiveStep s l s') :
    s'.app.queue.WellFormed n ∧ Conserved s' := by
  cases hst with
  | @post e =>
      refine ⟨hwf.post e, fun e' => ?_⟩
      have hold := h e'
      show s.returned.count e' + s.discarded.count e' + (s.app.queue.post e).entries.count e'
          + (s.app.inputs.flatMap InChannel.entries).count e'
        = (if s.app.queue.free = [] then s.accepted else s.accepted ++ [e]).count e'
          + s.sent.count e'
      by_cases hfree : s.app.queue.free = []
      · rw [if_pos hfree, AppQueue.post_of_exhausted hfree]
        exact hold
      · rw [if_neg hfree, hwf.post_entries hfree, List.count_append, List.count_append]
        omega
  | openChannel =>
      refine ⟨hwf, fun e => ?_⟩
      have hold := h e
      show _ + _ + _ + ((s.app.inputs ++ [_]).flatMap InChannel.entries).count e = _
      rw [List.flatMap_append, List.count_append]
      exact hold
  | @send l₁ l₂ ch p hin =>
      refine ⟨hwf, fun e => ?_⟩
      have hold := h e
      rw [hin, count_inputs_split] at hold
      have hnew : ({ ch with pending := ch.pending ++ [p] } : InChannel).entries
          = ch.entries ++ [⟨p, ch.streamId⟩] := List.map_append
      show s.returned.count e + s.discarded.count e + s.app.queue.entries.count e
          + ((l₁ ++ { ch with pending := ch.pending ++ [p] } :: l₂).flatMap
            InChannel.entries).count e
        = s.accepted.count e + (s.sent ++ [(⟨p, ch.streamId⟩ : DataEntry)]).count e
      rw [count_inputs_split, hnew, List.count_append, List.count_append]
      omega
  | @closeChannel l₁ l₂ ch hin =>
      refine ⟨hwf, fun e => ?_⟩
      have hold := h e
      rw [hin, count_inputs_split] at hold
      show s.returned.count e + (s.discarded ++ ch.entries).count e
          + s.app.queue.entries.count e + ((l₁ ++ l₂).flatMap InChannel.entries).count e
        = s.accepted.count e + s.sent.count e
      rw [List.flatMap_append, List.count_append, List.count_append]
      omega
  | @reorder inputs hperm =>
      refine ⟨hwf, fun e => ?_⟩
      have hold := h e
      show _ + _ + _ + (inputs.flatMap InChannel.entries).count e = _
      rw [(hperm.flatMap_right InChannel.entries).count_eq e]
      exact hold
  | @receive count dataEntries dataEntries' numEntries k app' hn hsize hrecv =>
      obtain ⟨k', hcall, hk⟩ := @receive_eq numEntries count s.app dataEntries hn hsize
      rw [hrecv] at hcall
      cases hcall
      refine ⟨hwf.receiveRing numEntries.toNat, fun e => ?_⟩
      have hold := h e
      have hmoved := @count_received count s.app numEntries.toNat e
      show (s.returned ++ List.take k.toNat _).count e + s.discarded.count e
          + (afterReceive count s.app numEntries.toNat).queue.entries.count e
          + ((afterReceive count s.app numEntries.toNat).inputs.flatMap
            InChannel.entries).count e
        = s.accepted.count e + s.sent.count e
      rw [hk, List.take_left, List.count_append]
      omega

/-- **OVER ANY NUMBER OF CALLS** nothing is lost, duplicated or attributed to another
    stream. -/
theorem conserved_run {q : RegisteredQueue} {tr : List (ReceiveSys × ReceiveLabel)}
    {s : ReceiveSys} (h : Run ReceiveStep (.init q) tr s) : Conserved s :=
  (h.invariant (P := fun s => s.app.queue.WellFormed q.appQueueSize ∧ Conserved s)
    ⟨q.wf, conserved_init q⟩ fun hs hst => conserved_step hs.1 hs.2 hst).2

/-- What a call returns, does to the array and to the app: `k` entries at the front of
    the array, the oldest of the ring and then the oldest of each channel under its
    stream, the rest of the array and of the queues as before, and the ring empty unless
    the array is full. -/
def Delivers (app : AppState) (dataEntries : List DataEntry) (n k : Nat)
    (dataEntries' : List DataEntry) (app' : AppState) : Prop :=
  k ≤ n ∧ ∃ (fromRing : List DataEntry) (took : List (InChannel × List BufPtr)),
    dataEntries' = (fromRing ++ took.flatMap tagged) ++ dataEntries.drop k
      ∧ (fromRing ++ took.flatMap tagged).length = k
      ∧ app.queue.entries = fromRing ++ app'.queue.entries
      ∧ app.inputs = took.map Prod.fst
      ∧ app'.inputs = took.map (fun x => x.1.after x.2)
      ∧ (∀ x ∈ took, x.2 <+: x.1.pending)
      ∧ (k < n → app'.queue.entries = [])

/-- **`jrtc_router_receive`** returns without writing past an array, delivers what it
    returns, and over any number of calls conserves the entries. -/
theorem receive_delivers :
    (∀ (count : InChannel → Nat → Nat) (app : AppState) (dataEntries : List DataEntry)
      (numEntries : BitVec 64), numEntries.toNat < 2 ^ 31 →
      numEntries.toNat ≤ dataEntries.length →
      ∃ k dataEntries' app', receive count app dataEntries numEntries
          = .ok (k, dataEntries', app')
        ∧ 0 ≤ k.toInt ∧ k.toInt = k.toNat
        ∧ Delivers app dataEntries numEntries.toNat k.toNat dataEntries' app')
      ∧ ∀ (q : RegisteredQueue) (tr : List (ReceiveSys × ReceiveLabel)) (s : ReceiveSys),
        Run ReceiveStep (.init q) tr s → Conserved s := by
  refine ⟨fun count app dataEntries numEntries hn hsize => ?_, fun _ _ _ h => conserved_run h⟩
  obtain ⟨k, hcall, hk⟩ := @receive_eq numEntries count app dataEntries hn hsize
  have hle : (received count app numEntries.toNat).length ≤ numEntries.toNat :=
    length_received_le app _
  have hint : k.toInt = k.toNat := BitVec.toInt_eq_toNat_of_lt (by omega)
  refine ⟨k, _, _, hcall, by omega, hint, by omega, (app.queue.receiveRing numEntries.toNat).1,
    tookFrom count _ app.inputs, by rw [hk]; rfl, hk.symm,
    (AppQueue.receiveRing_entries _ _).symm, (map_fst_tookFrom _ _).symm, rfl,
    fun x hx => prefix_of_mem_tookFrom hx, fun hlt => receiveRing_drains ?_⟩
  have hparts : (received count app numEntries.toNat).length
      = (app.queue.receiveRing numEntries.toNat).1.length + _ := List.length_append
  omega

/-- One entry in the ring and three buffers in a channel, with room for three. -/
theorem receive_delivers_mixed :
    (∃ k dataEntries' app',
      receive (fun _ n => n)
          ⟨((RegisteredQueue.fresh 2 (by decide)).post ⟨7, Vector.replicate 16 1⟩).queue,
            [⟨0, Vector.replicate 16 2, [8, 9, 10]⟩]⟩
          (List.replicate 3 ⟨0, Vector.replicate 16 0⟩) 3
        = .ok (k, dataEntries', app')
      ∧ Delivers
          ⟨((RegisteredQueue.fresh 2 (by decide)).post ⟨7, Vector.replicate 16 1⟩).queue,
            [⟨0, Vector.replicate 16 2, [8, 9, 10]⟩]⟩
          (List.replicate 3 ⟨0, Vector.replicate 16 0⟩) 3 k.toNat dataEntries' app')
      ∧ ∃ s, Run ReceiveStep (.init (RegisteredQueue.fresh 2 (by decide)))
          [(.init (RegisteredQueue.fresh 2 (by decide)), .openChannel 0 (Vector.replicate 16 2))] s
        ∧ Conserved s := by
  refine ⟨?_, _, .next .start .openChannel, receive_delivers.2 _ _ _ (.next .start .openChannel)⟩
  obtain ⟨k, dataEntries', app', hcall, -, -, h⟩ := receive_delivers.1 (fun _ n => n)
    ⟨((RegisteredQueue.fresh 2 (by decide)).post ⟨7, Vector.replicate 16 1⟩).queue,
      [⟨0, Vector.replicate 16 2, [8, 9, 10]⟩]⟩
    (List.replicate 3 ⟨0, Vector.replicate 16 0⟩) 3 (by decide) (by decide)
  exact ⟨k, dataEntries', app', hcall, h⟩

end JrtcReceive
