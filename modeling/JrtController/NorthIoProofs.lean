import JrtController.LedgerProofs
import JrtController.ReceiveProofs

/-! # The north IO app

    `jrtc_start_app` of the app that forwards the router's data to the network: it takes a
    batch of entries from the router and hands it to `aa_channel_encode_fwd_out_data`,
    which copies each entry to an mbuf of its own, queues those that were serialized in
    three arrays with one index, sends what was queued with one `sendmmsg` and gives the
    mbufs back.

    * `Outcome` — the three ways an entry can end, with the calls each makes;
    * `encodeEntry_eq`, `filled_turn` — an entry of the code is one of them, and fills the
      arrays accordingly;
    * `encode_eq` — a whole batch as a list of outcomes;
    * `Forwards`, `encode_forwards` — what holds of the calls of every batch;
    * `turn_eq`, `turns_eq` — the loop of the app around it, over any number of turns. -/

namespace JrtcNorthIo

open JrtcAppQueue JrtcReceive Loops Ledgers

/-! ## `aa_channel_encode_fwd_out_data` -/

/-- `AA_OUT_BUFS_BATCH_SIZE`. -/
def outBufsBatchSize : Nat := 100

/-- `AA_NET_ELEM_SIZE`. -/
def netElemSize : Nat := 65535 - 128

/-- `struct sockaddr_in`. -/
structure SockaddrIn where
  sinFamily : BitVec 16
  sinPort   : BitVec 16
  sinAddr   : BitVec 32
  deriving DecidableEq

/-- The parts of `struct aa_net_info` that forwarding reads, the mempool apart. -/
structure NetInfo where
  outSockfd     : Int
  collectorAddr : SockaddrIn

/-- `net_mempool`: the mbufs it can hand out, and the data areas of all of them. -/
structure Mempool where
  free : Finset Mbuf
  data : Mbuf → List (BitVec 8)

/-- What the libraries do for one entry. -/
structure EntryEnv where
  /-- the mbuf the mempool would like to hand out -/
  wanted  : Option Mbuf
  /-- `jbpf_io_channel_pack_msg`: the size it returns, and the data area afterwards -/
  packMsg : List (BitVec 8) → Nat → BitVec 32 × List (BitVec 8)

/-- `jbpf_mbuf_alloc`: it may fail, and hands out only what is free. -/
def Mempool.mbufAlloc (pool : Mempool) (wanted : Option Mbuf) : Option Mbuf :=
  wanted.filter (· ∈ pool.free)

/-- What `jrtc_router_create_serialized_msg` left in an mbuf. -/
structure Packed where
  jmbuf   : Mbuf
  msgSize : BitVec 32
  data    : List (BitVec 8)
  deriving DecidableEq

/-- `struct iovec`. -/
structure Iovec where
  iovBase : Option Mbuf
  iovLen  : BitVec 64
  deriving DecidableEq

/-- `struct msghdr`; `msg_iov` points to a row of the function's `iovec`. -/
structure Msghdr where
  msgIov     : Option Nat
  msgIovlen  : Nat
  msgName    : Option SockaddrIn
  msgNamelen : Nat
  deriving DecidableEq

/-- The bytes behind one `struct iovec`. -/
structure Segment where
  jmbuf : Mbuf
  bytes : List (BitVec 8)
  len   : BitVec 64
  deriving DecidableEq

/-- What the kernel reads behind one `struct msghdr`. -/
structure Message where
  iov     : List Segment
  name    : Option SockaddrIn
  namelen : Nat
  deriving DecidableEq

/-- The calls of the function, with what they return. -/
inductive IoCall where
  | mbufAlloc (jmbuf : Option Mbuf)
  | packMsg (e : DataEntry) (packed : Packed)
  | mbufFree (jmbuf : Mbuf)
  | releaseBuf (ptr : BufPtr)
  | sendmmsg (sockfd : Int) (msgs : List Message)
  | logger (line : String)
  deriving DecidableEq

/-- `jrtc_router_channel_release_buf`. -/
def channelReleaseBuf (ptr : BufPtr) : List IoCall :=
  if ptr = 0 then [] else [.releaseBuf ptr]

/-- The local variables, the mempool and the calls made so far. -/
structure Locals where
  jmbufList : List (Option Mbuf)
  iovec     : List Iovec
  datagrams : List Msghdr
  nSent     : Nat
  pool      : Mempool
  log       : List IoCall

def Locals.init (pool : Mempool) : Locals where
  jmbufList := List.replicate outBufsBatchSize none
  iovec := List.replicate outBufsBatchSize ⟨none, 0⟩
  datagrams := List.replicate outBufsBatchSize ⟨none, 0, none, 0⟩
  nSent := 0
  pool := pool
  log := []

def Locals.emit (s : Locals) (calls : List IoCall) : Locals :=
  { s with log := s.log ++ calls }

/-- `jbpf_mbuf_free`. -/
def Locals.mbufFree (s : Locals) (jmbuf : Mbuf) : Locals :=
  ({ s with pool := { s.pool with free := insert jmbuf s.pool.free } } : Locals).emit
    [.mbufFree jmbuf]

/-- The mempool hands out an mbuf and the entry is serialized into it. -/
def Locals.pack (s : Locals) (e : DataEntry) (x : Packed) : Locals :=
  ({ s with pool := ⟨s.pool.free.erase x.jmbuf, Function.update s.pool.data x.jmbuf x.data⟩ } :
    Locals).emit [.mbufAlloc (some x.jmbuf), .packMsg e x]

/-- The header of the message that is `i`th in the queue. -/
def header (net : NetInfo) (i : Nat) : Msghdr := ⟨some i, 1, some net.collectorAddr, 16⟩

def Packed.iovec (x : Packed) : Iovec := ⟨some x.jmbuf, x.msgSize.signExtend 64⟩

/-- The three arrays get a message at `n_sent`. -/
def Locals.queueMsg (s : Locals) (net : NetInfo) (x : Packed) : Except Fault Locals :=
  if s.nSent < outBufsBatchSize then
    .ok { s with
      iovec := s.iovec.set s.nSent x.iovec
      jmbufList := s.jmbufList.set s.nSent (some x.jmbuf)
      datagrams := s.datagrams.set s.nSent (header net s.nSent)
      nSent := s.nSent + 1 }
  else .error .writeOutside

/-- The body of the first loop, for the entry `e`. -/
def encodeEntry (net : NetInfo) (env : EntryEnv) (e : DataEntry) (s : Locals) :
    Except Fault Locals :=
  match s.pool.mbufAlloc env.wanted with
  | none =>
      .ok (s.emit (.mbufAlloc none :: channelReleaseBuf e.data
        ++ [.logger "No memory to allocate for outbuf\n"]))
  | some jmbuf =>
      let packed := env.packMsg (s.pool.data jmbuf) netElemSize
      let x : Packed := ⟨jmbuf, packed.1, packed.2⟩
      let s := s.pack e x
      if 0 < x.msgSize.toInt then do
        let s ← s.queueMsg net x
        pure (s.emit (channelReleaseBuf e.data))
      else
        let s := s.emit [.logger ("Encoding failed with msg_size "
          ++ toString x.msgSize.toInt ++ "\n")]
        .ok ((s.mbufFree jmbuf).emit (channelReleaseBuf e.data))

/-- One turn of the first loop. -/
def encodeTurn (net : NetInfo) (env : Nat → EntryEnv) (dataEntries : List DataEntry)
    (s : Locals) (i : Nat) : Except Fault Locals :=
  match dataEntries[i]? with
  | none => .error .wildPointer
  | some e => encodeEntry net (env i) e s

/-- One `struct iovec`, as the kernel reads it. -/
def Mempool.readIovec (pool : Mempool) (v : Iovec) : Except Fault Segment :=
  match v.iovBase with
  | none => .error .wildPointer
  | some jmbuf => .ok ⟨jmbuf, (pool.data jmbuf).take v.iovLen.toNat, v.iovLen⟩

/-- One `struct msghdr`, as the kernel reads it. -/
def Locals.readMsg (s : Locals) (d : Msghdr) : Except Fault Message :=
  match d.msgIov with
  | none => .error .wildPointer
  | some row => do
      let iov ← ((s.iovec.drop row).take d.msgIovlen).mapM s.pool.readIovec
      pure ⟨iov, d.msgName, d.msgNamelen⟩

/-- The body of the last loop. -/
def freeQueued (s : Locals) (i : Nat) : Except Fault Locals :=
  match s.jmbufList[i]? with
  | some (some jmbuf) => .ok (s.mbufFree jmbuf)
  | _ => .error .wildPointer

/-- The lines that are logged where `sendmmsg` did not send everything. -/
def sendErrors (nSent : Nat) (sentMessages : Int) (strerror : String) : List IoCall :=
  if (nSent : Int) ≠ sentMessages then
    [.logger ("Error sending all output messages. Had to send " ++ toString nSent
      ++ ", but sent " ++ toString sentMessages ++ "\n"), .logger ("Error: " ++ strerror ++ "\n")]
  else []

/-- `aa_channel_encode_fwd_out_data`: the mempool afterwards, and the calls. -/
def encodeFwdOutData (net : NetInfo) (pool : Mempool) (env : Nat → EntryEnv)
    (sentMessages : Int) (strerror : String) (dataEntries : List DataEntry)
    (numEntries : Int) : Except Fault (Mempool × List IoCall) := do
  let s ← (List.range numEntries.toNat).foldlM (encodeTurn net env dataEntries)
    (Locals.init pool)
  let msgs ← (s.datagrams.take s.nSent).mapM s.readMsg
  let s := s.emit (.sendmmsg net.outSockfd msgs :: sendErrors s.nSent sentMessages strerror)
  let s ← (List.range s.nSent).foldlM freeQueued s
  pure (s.pool, s.log)

/-! ## The outcomes of an entry -/

/-- How an entry ends. -/
inductive Outcome where
  | noMbuf
  | failed (x : Packed)
  | queued (x : Packed)

namespace Outcome

/-- The calls before the data of the entry is released. -/
def before (e : DataEntry) : Outcome → List IoCall
  | noMbuf => [.mbufAlloc none]
  | failed x =>
      [.mbufAlloc (some x.jmbuf), .packMsg e x,
        .logger ("Encoding failed with msg_size " ++ toString x.msgSize.toInt ++ "\n"),
        .mbufFree x.jmbuf]
  | queued x => [.mbufAlloc (some x.jmbuf), .packMsg e x]

/-- The calls after it. -/
def after : Outcome → List IoCall
  | noMbuf => [.logger "No memory to allocate for outbuf\n"]
  | failed _ => []
  | queued _ => []

def calls (e : DataEntry) (o : Outcome) : List IoCall :=
  o.before e ++ channelReleaseBuf e.data ++ o.after

/-- The outcome fits what was serialized. -/
def Fits : Outcome → Prop
  | noMbuf => True
  | failed x => ¬ 0 < x.msgSize.toInt
  | queued x => 0 < x.msgSize.toInt

/-- The mbuf of the outcome is one the mempool can hand out. -/
def TakesFree (pool : Mempool) : Outcome → Prop
  | noMbuf => True
  | failed x => x.jmbuf ∈ pool.free
  | queued x => x.jmbuf ∈ pool.free

def queued? : Outcome → Option Packed
  | queued x => some x
  | _ => none

end Outcome

/-- What was queued for `sendmmsg`, in the order of the entries. -/
def queue (os : List Outcome) : List Packed := os.filterMap Outcome.queued?

/-- The local variables after an entry with outcome `o`. -/
def Locals.turn (s : Locals) (net : NetInfo) (e : DataEntry) (o : Outcome) : Locals :=
  match o with
  | .noMbuf => s.emit (o.calls e)
  | .failed x =>
      ({ s with pool := { s.pool with data := Function.update s.pool.data x.jmbuf x.data } } :
        Locals).emit (o.calls e)
  | .queued x =>
      ({ s with
        iovec := s.iovec.set s.nSent x.iovec
        jmbufList := s.jmbufList.set s.nSent (some x.jmbuf)
        datagrams := s.datagrams.set s.nSent (header net s.nSent)
        nSent := s.nSent + 1
        pool := ⟨s.pool.free.erase x.jmbuf, Function.update s.pool.data x.jmbuf x.data⟩ } :
        Locals).emit (o.calls e)

theorem mem_free_of_mbufAlloc {pool : Mempool} {wanted : Option Mbuf} {jmbuf : Mbuf}
    (h : pool.mbufAlloc wanted = some jmbuf) : jmbuf ∈ pool.free :=
  of_decide_eq_true (Option.filter_eq_some_iff.mp h).2

/-- **AN ENTRY** ends in one of the three ways. -/
theorem encodeEntry_eq (net : NetInfo) (env : EntryEnv) (e : DataEntry) {s : Locals}
    (hroom : s.nSent < outBufsBatchSize) :
    ∃ o : Outcome, o.Fits ∧ o.TakesFree s.pool
      ∧ encodeEntry net env e s = .ok (s.turn net e o) := by
  rw [encodeEntry]
  cases halloc : s.pool.mbufAlloc env.wanted with
  | none => exact ⟨.noMbuf, trivial, trivial, rfl⟩
  | some jmbuf =>
      have hfree := mem_free_of_mbufAlloc halloc
      let packed := env.packMsg (s.pool.data jmbuf) netElemSize
      let x : Packed := ⟨jmbuf, packed.1, packed.2⟩
      by_cases hsize : 0 < x.msgSize.toInt
      · refine ⟨.queued x, hsize, hfree, (if_pos hsize).trans ?_⟩
        rw [Locals.queueMsg, if_pos (show (s.pack e x).nSent < outBufsBatchSize from hroom)]
        refine congrArg Except.ok ?_
        simp only [Locals.turn, Locals.pack, Locals.emit, Outcome.calls, Outcome.before,
          Outcome.after, List.append_assoc, List.append_nil]
        rfl
      · refine ⟨.failed x, hsize, hfree, (if_neg hsize).trans (congrArg Except.ok ?_)⟩
        simp only [Locals.turn, Locals.pack, Locals.mbufFree, Locals.emit, Outcome.calls,
          Outcome.before, Outcome.after, Finset.insert_erase hfree, List.append_assoc,
          List.append_nil, List.cons_append, List.nil_append]
        rfl

/-! ## The arrays -/

theorem queue_append (os os' : List Outcome) : queue (os ++ os') = queue os ++ queue os' :=
  List.filterMap_append

theorem length_queue_le (os : List Outcome) : (queue os).length ≤ os.length :=
  List.length_filterMap_le _ _

/-- The mbufs that are held for `sendmmsg`. -/
def held (os : List Outcome) : Finset Mbuf := ((queue os).map Packed.jmbuf).toFinset

theorem queue_snoc_of_not_queued {o : Outcome} (os : List Outcome) (h : o.queued? = none) :
    queue (os ++ [o]) = queue os := by
  have hnil : queue [o] = [] := List.filterMap_cons_none h
  rw [queue_append, hnil, List.append_nil]

/-- The calls of a list of entries. -/
def allCalls (es : List DataEntry) (os : List Outcome) : List IoCall :=
  (es.zip os).flatMap fun x => x.2.calls x.1

theorem allCalls_snoc {es : List DataEntry} {os : List Outcome} (h : os.length = es.length)
    (e : DataEntry) (o : Outcome) :
    allCalls (es ++ [e]) (os ++ [o]) = allCalls es os ++ o.calls e := by
  rw [allCalls, List.zip_append h.symm, List.flatMap_append]
  show _ ++ (o.calls e ++ []) = _
  rw [List.append_nil]
  rfl

/-- The entry that a call makes in the ledger of the mbufs. -/
def ledgerOp : IoCall → Option (Op Mbuf)
  | .mbufAlloc (some jmbuf) => some (.take jmbuf)
  | .mbufFree jmbuf => some (.give jmbuf)
  | .sendmmsg _ msgs => some (.use (msgs.flatMap fun m => m.iov.map Segment.jmbuf))
  | _ => none

def ledger (calls : List IoCall) : List (Op Mbuf) := calls.filterMap ledgerOp

theorem ledger_append (calls calls' : List IoCall) :
    ledger (calls ++ calls') = ledger calls ++ ledger calls' :=
  List.filterMap_append

/-- `releaseBuf` is the only call that `jrtc_router_channel_release_buf` makes. -/
theorem filterMap_channelReleaseBuf {α : Type} {f : IoCall → Option α}
    (hf : ∀ ptr, f (.releaseBuf ptr) = none) (ptr : BufPtr) :
    (channelReleaseBuf ptr).filterMap f = [] := by
  rw [channelReleaseBuf]
  split
  · rfl
  · exact List.filterMap_cons_none (hf ptr)

/-- The calls of an entry, seen through an `f` that ignores what is logged. -/
theorem filterMap_calls {α : Type} {f : IoCall → Option α}
    (hlog : ∀ line, f (.logger line) = none) (e : DataEntry) (o : Outcome) :
    (o.calls e).filterMap f
      = (o.before e).filterMap f ++ (channelReleaseBuf e.data).filterMap f := by
  have hafter : o.after.filterMap f = [] := by
    cases o with
    | noMbuf => exact List.filterMap_cons_none (hlog _)
    | failed x => rfl
    | queued x => rfl
  rw [Outcome.calls, List.filterMap_append, List.filterMap_append, hafter, List.append_nil]

/-- And through one that ignores releases too. -/
theorem filterMap_calls_of_none {α : Type} {f : IoCall → Option α}
    (hlog : ∀ line, f (.logger line) = none) (hrel : ∀ ptr, f (.releaseBuf ptr) = none)
    (e : DataEntry) (o : Outcome) : (o.calls e).filterMap f = (o.before e).filterMap f := by
  rw [filterMap_calls hlog, filterMap_channelReleaseBuf hrel, List.append_nil]

theorem ledger_calls (e : DataEntry) (o : Outcome) :
    ledger (o.calls e) = ledger (o.before e) :=
  filterMap_calls_of_none (fun _ => rfl) (fun _ => rfl) e o

/-- An array of the function, filled with one element for each message in the queue. -/
def FilledWith {α : Type} (zero : α) (front : List α) (array : List α) : Prop :=
  array = front ++ (List.replicate outBufsBatchSize zero).drop front.length

theorem FilledWith.set {α β : Type} {zero : α} {f : β → α} {l : List β} {array : List α}
    (h : FilledWith zero (l.map f) array) (hroom : l.length < outBufsBatchSize) (x : β) :
    FilledWith zero ((l ++ [x]).map f) (array.set l.length (f x)) := by
  have hlen : l.length = (l.map f).length := (List.length_map f).symm
  rw [FilledWith, h, List.map_append, hlen]
  exact set_behind (by rwa [← hlen, List.length_replicate]) (f x)

/-- The entries `es` ended in `os`, and the local variables are as that leaves them. -/
structure Filled (net : NetInfo) (pool : Mempool) (es : List DataEntry) (os : List Outcome)
    (s : Locals) : Prop where
  length    : os.length = es.length
  fits      : ∀ o ∈ os, o.Fits
  log       : s.log = allCalls es os
  nSent     : s.nSent = (queue os).length
  iovec     : FilledWith ⟨none, 0⟩ ((queue os).map Packed.iovec) s.iovec
  jmbufList : FilledWith none ((queue os).map fun x => some x.jmbuf) s.jmbufList
  datagrams : FilledWith ⟨none, 0, none, 0⟩ ((List.range (queue os).length).map (header net))
    s.datagrams
  data      : ∀ x ∈ queue os, s.pool.data x.jmbuf = x.data
  nodup     : ((queue os).map Packed.jmbuf).Nodup
  taken     : held os ⊆ pool.free
  free      : s.pool.free = pool.free \ held os
  ledger    : Ledgers.run ∅ (ledger s.log) = some (held os)

variable {net : NetInfo} {pool : Mempool} {es : List DataEntry} {os : List Outcome}
  {s : Locals}

theorem filled_init (net : NetInfo) (pool : Mempool) :
    Filled net pool [] [] (.init pool) where
  length := rfl
  fits _ ho := (List.not_mem_nil ho).elim
  log := rfl
  nSent := rfl
  iovec := rfl
  jmbufList := rfl
  datagrams := rfl
  data _ hx := (List.not_mem_nil hx).elim
  nodup := List.nodup_nil
  taken := Finset.empty_subset _
  free := Finset.sdiff_empty.symm
  ledger := rfl

theorem Filled.fits_snoc (h : Filled net pool es os s) {o : Outcome} (ho : o.Fits) :
    ∀ o' ∈ os ++ [o], o'.Fits :=
  List.forall_mem_append.mpr ⟨h.fits, List.forall_mem_singleton.mpr ho⟩

/-- What the mempool can hand out is not held for `sendmmsg`. -/
theorem Filled.not_mem_held (h : Filled net pool es os s) {m : Mbuf} (hm : m ∈ s.pool.free) :
    m ∉ held os := by
  rw [h.free] at hm
  exact (Finset.mem_sdiff.mp hm).2

/-- Writing to an mbuf that is free leaves the queued messages as they are. -/
theorem Filled.data_update (h : Filled net pool es os s) {m : Mbuf} (hm : m ∈ s.pool.free)
    (data : List (BitVec 8)) :
    ∀ x ∈ queue os, Function.update s.pool.data m data x.jmbuf = x.data := by
  intro x hx
  have hne : x.jmbuf ≠ m := by
    intro heq
    refine h.not_mem_held hm (List.mem_toFinset.mpr ?_)
    rw [← heq]
    exact List.mem_map_of_mem hx
  rw [Function.update_of_ne hne]
  exact h.data x hx

/-- An entry that is not queued leaves the arrays as they are. -/
theorem Filled.turn_of_not_queued (h : Filled net pool es os s) (e : DataEntry) {o : Outcome}
    (ho : o.Fits) (hq : o.queued? = none) {data : Mbuf → List (BitVec 8)}
    (hdata : ∀ x ∈ queue os, data x.jmbuf = x.data)
    (hledger : Ledgers.run (held os) (JrtcNorthIo.ledger (o.calls e)) = some (held os)) :
    Filled net pool (es ++ [e]) (os ++ [o])
      (({ s with pool := { s.pool with data := data } } : Locals).emit (o.calls e)) := by
  have hqueue : queue (os ++ [o]) = queue os := queue_snoc_of_not_queued os hq
  have hheld : held (os ++ [o]) = held os := by rw [held, hqueue, held]
  refine
    { length := by rw [List.length_append, List.length_append, h.length]; rfl
      fits := h.fits_snoc ho
      log := ?_
      nSent := by rw [hqueue]; exact h.nSent
      iovec := by rw [hqueue]; exact h.iovec
      jmbufList := by rw [hqueue]; exact h.jmbufList
      datagrams := by rw [hqueue]; exact h.datagrams
      data := by rw [hqueue]; exact hdata
      nodup := by rw [hqueue]; exact h.nodup
      taken := by rw [hheld]; exact h.taken
      free := by rw [hheld]; exact h.free
      ledger := ?_ }
  · show s.log ++ o.calls e = _
    rw [allCalls_snoc h.length, h.log]
  · show Ledgers.run ∅ (JrtcNorthIo.ledger (s.log ++ o.calls e)) = _
    rw [ledger_append, run_append, h.ledger, hheld]
    exact hledger

/-- An entry that is queued takes the next place in the arrays. -/
theorem Filled.turn_queued (h : Filled net pool es os s) (e : DataEntry) {x : Packed}
    (hroom : (queue os).length < outBufsBatchSize) (hsize : 0 < x.msgSize.toInt)
    (hx : x.jmbuf ∈ s.pool.free) :
    Filled net pool (es ++ [e]) (os ++ [.queued x]) (s.turn net e (.queued x)) := by
  have hqueue : queue (os ++ [.queued x]) = queue os ++ [x] := queue_append os [.queued x]
  have hnot := h.not_mem_held hx
  have hheld : held (os ++ [.queued x]) = insert x.jmbuf (held os) := by
    rw [held, hqueue, List.map_append, List.toFinset_append, held, Finset.union_comm]
    rfl
  refine
    { length := by rw [List.length_append, List.length_append, h.length]; rfl
      fits := h.fits_snoc hsize
      log := ?_
      nSent := ?_
      iovec := ?_
      jmbufList := ?_
      datagrams := ?_
      data := ?_
      nodup := ?_
      taken := ?_
      free := ?_
      ledger := ?_ }
  · show s.log ++ (Outcome.queued x).calls e = _
    rw [allCalls_snoc h.length, h.log]
  · show s.nSent + 1 = _
    rw [hqueue, List.length_append, h.nSent]
    rfl
  · show FilledWith _ _ (s.iovec.set s.nSent x.iovec)
    rw [hqueue, h.nSent]
    exact h.iovec.set hroom x
  · show FilledWith _ _ (s.jmbufList.set s.nSent (some x.jmbuf))
    rw [hqueue, h.nSent]
    exact h.jmbufList.set hroom x
  · show FilledWith _ _ (s.datagrams.set s.nSent (header net s.nSent))
    rw [hqueue, List.length_append, List.length_singleton, List.range_succ, h.nSent]
    have hset := h.datagrams.set (by rwa [List.length_range]) (queue os).length
    rwa [List.length_range] at hset
  · intro y hy
    rw [hqueue] at hy
    rcases List.mem_append.mp hy with hy | hy
    · exact h.data_update hx x.data y hy
    · rw [List.mem_singleton.mp hy]
      exact Function.update_self ..
  · rw [hqueue, List.map_append]
    refine h.nodup.append (List.nodup_singleton _) fun m hm hm' => ?_
    rw [List.mem_singleton.mp hm'] at hm
    exact hnot (List.mem_toFinset.mpr hm)
  · rw [hheld]
    refine Finset.insert_subset ?_ h.taken
    rw [h.free] at hx
    exact (Finset.mem_sdiff.mp hx).1
  · show s.pool.free.erase x.jmbuf = _
    rw [hheld, h.free, Finset.sdiff_insert]
  · show Ledgers.run ∅ (JrtcNorthIo.ledger (s.log ++ (Outcome.queued x).calls e)) = _
    rw [ledger_append, run_append, h.ledger, hheld, ledger_calls]
    exact run_take hnot []

/-- **EVERY ENTRY** keeps the arrays, the mempool and the ledger in step. -/
theorem filled_turn (h : Filled net pool es os s) (e : DataEntry) {o : Outcome}
    (hroom : (queue os).length < outBufsBatchSize) (ho : o.Fits)
    (hfree : o.TakesFree s.pool) :
    Filled net pool (es ++ [e]) (os ++ [o]) (s.turn net e o) := by
  cases o with
  | noMbuf =>
      refine h.turn_of_not_queued e (o := .noMbuf) trivial rfl h.data ?_
      rw [ledger_calls]
      rfl
  | failed x =>
      refine h.turn_of_not_queued e (o := .failed x) ho rfl (h.data_update hfree x.data) ?_
      rw [ledger_calls]
      exact run_take_give (h.not_mem_held hfree) []
  | queued x => exact h.turn_queued e hroom ho hfree

/-- **THE FIRST LOOP** never leaves the arrays. -/
theorem exists_filled (net : NetInfo) (pool : Mempool) (env : Nat → EntryEnv)
    (dataEntries : List DataEntry) {n : Nat} (hn : n ≤ outBufsBatchSize)
    (hsize : n ≤ dataEntries.length) :
    ∃ s, (List.range n).foldlM (encodeTurn net env dataEntries) (Locals.init pool) = .ok s
      ∧ ∃ os, Filled net pool (dataEntries.take n) os s := by
  refine exists_foldlM_range (P := fun i s => ∃ os, Filled net pool (dataEntries.take i) os s)
    ⟨[], filled_init net pool⟩ ?_
  rintro i hi s ⟨os, h⟩
  have hi' : i < dataEntries.length := by omega
  have hlen : os.length = i := by
    rw [h.length, List.length_take]
    omega
  have hroom : (queue os).length < outBufsBatchSize := by
    have hle := length_queue_le os
    omega
  obtain ⟨o, hfits, hfree, hturn⟩ := encodeEntry_eq net (env i) (dataEntries[i])
    (s := s) (by rw [h.nSent]; exact hroom)
  refine ⟨s.turn net dataEntries[i] o, ?_, os ++ [o], ?_⟩
  · rw [encodeTurn, List.getElem?_eq_getElem hi']
    exact hturn
  · rw [List.take_succ_eq_append_getElem hi']
    exact filled_turn h dataEntries[i] hroom hfits hfree

/-! ## Sending and giving back -/

/-- The message that was serialized into an mbuf. -/
def message (net : NetInfo) (x : Packed) : Message :=
  ⟨[⟨x.jmbuf, x.data.take (x.msgSize.signExtend 64).toNat, x.msgSize.signExtend 64⟩],
    some net.collectorAddr, 16⟩

theorem FilledWith.take {α : Type} {zero : α} {front array : List α}
    (h : FilledWith zero front array) : array.take front.length = front := by
  rw [h]
  exact List.take_left

theorem FilledWith.getElem? {α : Type} {zero : α} {front array : List α}
    (h : FilledWith zero front array) {i : Nat} (hi : i < front.length) :
    array[i]? = front[i]? := by
  rw [h, List.getElem?_append_left hi]

/-- The kernel finds behind each header the message that was queued with it. -/
theorem Filled.readMsg_header (h : Filled net pool es os s) {i : Nat} {x : Packed}
    (hx : (queue os)[i]? = some x) : s.readMsg (header net i) = .ok (message net x) := by
  have hi : i < (queue os).length := (List.getElem?_eq_some_iff.mp hx).1
  have hiov : s.iovec[i]? = some x.iovec := by
    rw [h.iovec.getElem? (by rwa [List.length_map]), List.getElem?_map, hx]
    rfl
  have hrow : (s.iovec.drop i).take 1 = [x.iovec] := by
    obtain ⟨hlt, hget⟩ := List.getElem?_eq_some_iff.mp hiov
    rw [List.drop_eq_getElem_cons hlt, hget]
    rfl
  have hdata := h.data x (List.mem_of_getElem? hx)
  show (((s.iovec.drop i).take 1).mapM s.pool.readIovec >>= _) = _
  rw [hrow, message, ← hdata]
  rfl

/-- **WHAT `sendmmsg` IS GIVEN.** -/
theorem Filled.readMsgs (h : Filled net pool es os s) :
    (s.datagrams.take s.nSent).mapM s.readMsg = .ok ((queue os).map (message net)) := by
  have hheaders : s.datagrams.take s.nSent
      = (List.range (queue os).length).map (header net) := by
    have htake := h.datagrams.take
    rw [List.length_map, List.length_range] at htake
    rw [h.nSent, htake]
  rw [hheaders, mapM_eq_ok_iff, List.forall₂_map_left_iff, List.forall₂_map_right_iff,
    List.forall₂_iff_get]
  refine ⟨List.length_range, fun i hi hi' => ?_⟩
  have hrange : (List.range (queue os).length).get ⟨i, hi⟩ = i := List.getElem_range _
  rw [hrange]
  exact h.readMsg_header (List.getElem?_eq_getElem hi')

/-- The local variables after the mbufs of `xs` were given back. -/
def Locals.freed (s : Locals) (xs : List Packed) : Locals :=
  ({ s with pool := { s.pool with free := s.pool.free ∪ (xs.map Packed.jmbuf).toFinset } } :
    Locals).emit (xs.map fun x => .mbufFree x.jmbuf)

theorem Locals.freed_snoc (s : Locals) (xs : List Packed) (x : Packed) :
    (s.freed xs).mbufFree x.jmbuf = s.freed (xs ++ [x]) := by
  have hfree : insert x.jmbuf (s.pool.free ∪ (xs.map Packed.jmbuf).toFinset)
      = s.pool.free ∪ ((xs ++ [x]).map Packed.jmbuf).toFinset := by
    rw [List.map_append, List.toFinset_append, ← Finset.union_assoc, Finset.insert_eq,
      Finset.union_comm]
    rfl
  simp only [Locals.freed, Locals.mbufFree, Locals.emit, hfree, List.map_append,
    List.append_assoc]
  rfl

/-- **THE LAST LOOP** gives back what was queued. -/
theorem freeQueued_all {s : Locals} {xs : List Packed}
    (h : FilledWith none (xs.map fun x => some x.jmbuf) s.jmbufList) :
    (List.range xs.length).foldlM freeQueued s = .ok (s.freed xs) := by
  obtain ⟨s', hloop, hs'⟩ := exists_foldlM_range (f := freeQueued) (n := xs.length) (b := s)
    (P := fun i s' => s' = s.freed (xs.take i))
    (by simp [Locals.freed, Locals.emit]) (by
      rintro i hi _ rfl
      have hget : s.jmbufList[i]? = some (some xs[i].jmbuf) := by
        rw [h.getElem? (by rwa [List.length_map]), List.getElem?_map,
          List.getElem?_eq_getElem hi]
        rfl
      refine ⟨(s.freed (xs.take i)).mbufFree xs[i].jmbuf, ?_, ?_⟩
      · have hget' : (s.freed (xs.take i)).jmbufList[i]? = some (some xs[i].jmbuf) := hget
        rw [freeQueued, hget']
      · rw [Locals.freed_snoc, List.take_succ_eq_append_getElem hi])
  rw [hloop, hs', List.take_length]

/-- The calls of a whole batch. -/
def batchCalls (net : NetInfo) (sentMessages : Int) (strerror : String)
    (es : List DataEntry) (os : List Outcome) : List IoCall :=
  allCalls es os
    ++ (.sendmmsg net.outSockfd ((queue os).map (message net))
      :: sendErrors (queue os).length sentMessages strerror)
    ++ (queue os).map fun x => .mbufFree x.jmbuf

/-- **A BATCH** is a list of outcomes, one for each entry. -/
theorem encode_eq (net : NetInfo) (pool : Mempool) (env : Nat → EntryEnv)
    (sentMessages : Int) (strerror : String) (dataEntries : List DataEntry) {numEntries : Int}
    (hn : numEntries ≤ outBufsBatchSize) (hsize : numEntries ≤ dataEntries.length) :
    ∃ os s, Filled net pool (dataEntries.take numEntries.toNat) os s
      ∧ encodeFwdOutData net pool env sentMessages strerror dataEntries numEntries
        = .ok (⟨pool.free, s.pool.data⟩,
            batchCalls net sentMessages strerror (dataEntries.take numEntries.toNat) os) := by
  obtain ⟨s, hloop, os, h⟩ := exists_filled net pool env dataEntries (n := numEntries.toNat)
    (by omega) (by omega)
  refine ⟨os, s, h, ?_⟩
  rw [encodeFwdOutData]
  refine bind_eq_ok_iff.mpr ⟨s, hloop, bind_eq_ok_iff.mpr ⟨_, h.readMsgs,
    bind_eq_ok_iff.mpr ⟨(s.emit (.sendmmsg net.outSockfd ((queue os).map (message net))
      :: sendErrors s.nSent sentMessages strerror)).freed (queue os), ?_, ?_⟩⟩⟩
  · show (List.range s.nSent).foldlM freeQueued _ = _
    rw [h.nSent]
    exact freeQueued_all h.jmbufList
  · have hfree : s.pool.free ∪ held os = pool.free := by
      rw [h.free, Finset.sdiff_union_of_subset h.taken]
    show Except.ok ((⟨s.pool.free ∪ held os, s.pool.data⟩ : Mempool), (s.log ++ _) ++ _) = _
    rw [hfree, h.log, h.nSent]
    rfl

/-! ## What every batch does -/

def IoCall.alloc? : IoCall → Option (Option Mbuf)
  | .mbufAlloc jmbuf => some jmbuf
  | _ => none

def IoCall.pack? : IoCall → Option (DataEntry × Packed)
  | .packMsg e x => some (e, x)
  | _ => none

def IoCall.free? : IoCall → Option Mbuf
  | .mbufFree jmbuf => some jmbuf
  | _ => none

def IoCall.release? : IoCall → Option BufPtr
  | .releaseBuf ptr => some ptr
  | _ => none

def IoCall.send? : IoCall → Option (Int × List Message)
  | .sendmmsg sockfd msgs => some (sockfd, msgs)
  | _ => none

/-- What the function does with the entries `es`. -/
structure Forwards (net : NetInfo) (es : List DataEntry) (calls : List IoCall) : Prop where
  /-- the data of each entry is released, once -/
  released  : calls.filterMap IoCall.release? = (es.map DataEntry.data).filter (· ≠ 0)
  /-- no mbuf is freed that was not allocated or was freed before, those behind the
      messages of `sendmmsg` were not freed before, and in the end none is left -/
  mbufs     : Ledgers.run ∅ (ledger calls) = some ∅
  /-- so each mbuf is freed as often as it is allocated -/
  freedOnce : ∀ m, (calls.filterMap IoCall.alloc?).count (some m)
    = (calls.filterMap IoCall.free?).count m
  /-- an mbuf is asked for for each entry -/
  asked     : (calls.filterMap IoCall.alloc?).length = es.length
  /-- and the entry serialized into it if there was one -/
  packed    : (calls.filterMap IoCall.pack?).map (fun x => (x.1, x.2.jmbuf))
    = (es.zip (calls.filterMap IoCall.alloc?)).filterMap fun x => x.2.map (x.1, ·)
  /-- what was serialized is sent, in the order of the entries -/
  sent      : calls.filterMap IoCall.send? = [(net.outSockfd,
    ((calls.filterMap IoCall.pack?).filter fun x => 0 < x.2.msgSize.toInt).map
      fun x => message net x.2)]

theorem filterMap_sendErrors {α : Type} {f : IoCall → Option α}
    (hf : ∀ line, f (.logger line) = none) (nSent : Nat) (sentMessages : Int)
    (strerror : String) : (sendErrors nSent sentMessages strerror).filterMap f = [] := by
  rw [sendErrors]
  split
  · rw [List.filterMap_cons_none (hf _), List.filterMap_cons_none (hf _)]
    rfl
  · rfl

/-- A batch, seen through `f`: the entries, the messages and the mbufs given back. -/
theorem filterMap_batchCalls {α : Type} {f : IoCall → Option α}
    (hf : ∀ line, f (.logger line) = none) (net : NetInfo) (sentMessages : Int)
    (strerror : String) (es : List DataEntry) (os : List Outcome) :
    (batchCalls net sentMessages strerror es os).filterMap f
      = (allCalls es os).filterMap f
        ++ [IoCall.sendmmsg net.outSockfd ((queue os).map (message net))].filterMap f
        ++ ((queue os).map fun x => IoCall.mbufFree x.jmbuf).filterMap f := by
  rw [batchCalls, List.filterMap_append, List.filterMap_append, ← List.singleton_append,
    List.filterMap_append, filterMap_sendErrors hf, List.append_nil]

/-- Where `f` sees neither the messages nor the mbufs given back, it sees the entries. -/
theorem filterMap_batchCalls_of_none {α : Type} {f : IoCall → Option α}
    (hf : ∀ line, f (.logger line) = none) (hsend : ∀ fd msgs, f (.sendmmsg fd msgs) = none)
    (hfree : ∀ m, f (.mbufFree m) = none) (net : NetInfo) (sentMessages : Int)
    (strerror : String) (es : List DataEntry) (os : List Outcome) :
    (batchCalls net sentMessages strerror es os).filterMap f
      = (allCalls es os).filterMap f := by
  have hnil : ((queue os).map fun x => IoCall.mbufFree x.jmbuf).filterMap f = [] := by
    rw [List.filterMap_map]
    exact List.filterMap_eq_nil_iff.mpr fun x _ => hfree x.jmbuf
  rw [filterMap_batchCalls hf, List.filterMap_cons_none (hsend _ _), hnil, List.append_nil]
  exact List.append_nil _

/-- The entries, seen through `f`, if it sees at most one call of each. -/
theorem filterMap_allCalls {α : Type} {f : IoCall → Option α}
    {g : DataEntry × Outcome → Option α}
    (hg : ∀ x, (x.2.calls x.1).filterMap f = (g x).toList) (es : List DataEntry)
    (os : List Outcome) : (allCalls es os).filterMap f = (es.zip os).filterMap g := by
  rw [allCalls, List.filterMap_flatMap]
  simp only [hg, List.filterMap_eq_flatMap_toList]

namespace Outcome

def jmbuf? : Outcome → Option Mbuf
  | noMbuf => none
  | failed x => some x.jmbuf
  | queued x => some x.jmbuf

def packed? : Outcome → Option Packed
  | noMbuf => none
  | failed x => some x
  | queued x => some x

theorem jmbuf?_eq (o : Outcome) : o.jmbuf? = o.packed?.map Packed.jmbuf := by
  cases o <;> rfl

theorem filterMap_alloc (e : DataEntry) (o : Outcome) :
    (o.calls e).filterMap IoCall.alloc? = [o.jmbuf?] := by
  rw [filterMap_calls_of_none (fun _ => rfl) fun _ => rfl]
  cases o <;> rfl

theorem filterMap_pack (e : DataEntry) (o : Outcome) :
    (o.calls e).filterMap IoCall.pack? = (o.packed?.map (e, ·)).toList := by
  rw [filterMap_calls_of_none (fun _ => rfl) fun _ => rfl]
  cases o <;> rfl

theorem filterMap_send (e : DataEntry) (o : Outcome) :
    (o.calls e).filterMap IoCall.send? = [] := by
  rw [filterMap_calls_of_none (fun _ => rfl) fun _ => rfl]
  cases o <;> rfl

theorem filterMap_release (e : DataEntry) (o : Outcome) :
    (o.calls e).filterMap IoCall.release? = (Option.guard (· ≠ 0) e.data).toList := by
  have hbefore : (o.before e).filterMap IoCall.release? = [] := by cases o <;> rfl
  rw [filterMap_calls fun _ => rfl, hbefore, channelReleaseBuf]
  by_cases h : e.data = 0
  · rw [if_pos h, h]
    rfl
  · rw [if_neg h, Option.guard, if_pos (decide_eq_true h)]
    rfl

/-- What was serialized with success is what was queued. -/
theorem packed?_filter {o : Outcome} (h : o.Fits) :
    o.packed?.filter (fun x => 0 < x.msgSize.toInt) = o.queued? := by
  cases o with
  | noMbuf => rfl
  | failed x => exact Option.filter_some_neg (decide_eq_false h)
  | queued x => exact Option.filter_some_pos (decide_eq_true h)

end Outcome

theorem packs_allCalls (es : List DataEntry) (os : List Outcome) :
    (allCalls es os).filterMap IoCall.pack?
      = (es.zip os).filterMap fun x => x.2.packed?.map (x.1, ·) :=
  filterMap_allCalls (fun x => Outcome.filterMap_pack x.1 x.2) es os

theorem Filled.releases (h : Filled net pool es os s) :
    (allCalls es os).filterMap IoCall.release? = (es.map DataEntry.data).filter (· ≠ 0) := by
  rw [filterMap_allCalls (g := fun x => Option.guard (· ≠ 0) x.1.data)
    fun x => Outcome.filterMap_release x.1 x.2]
  calc (es.zip os).filterMap (fun x => Option.guard (· ≠ 0) x.1.data)
      = (((es.zip os).map Prod.fst).map DataEntry.data).filterMap (Option.guard (· ≠ 0)) := by
        rw [List.filterMap_map, List.filterMap_map]
        rfl
    _ = (es.map DataEntry.data).filter (· ≠ 0) := by
        rw [List.map_fst_zip h.length.ge, List.filterMap_eq_filter]

theorem Filled.allocs (h : Filled net pool es os s) :
    (allCalls es os).filterMap IoCall.alloc? = os.map Outcome.jmbuf? := by
  rw [filterMap_allCalls (g := fun x => some x.2.jmbuf?)
    fun x => Outcome.filterMap_alloc x.1 x.2]
  calc (es.zip os).filterMap (fun x => some x.2.jmbuf?)
      = ((es.zip os).map Prod.snd).filterMap (some ∘ Outcome.jmbuf?) := by
        rw [List.filterMap_map]
        rfl
    _ = os.map Outcome.jmbuf? := by
        rw [List.map_snd_zip h.length.le, List.filterMap_eq_map]

/-- Each entry that got an mbuf is serialized into it. -/
theorem packs_map (es : List DataEntry) (os : List Outcome) :
    ((allCalls es os).filterMap IoCall.pack?).map (fun x => (x.1, x.2.jmbuf))
      = (es.zip (os.map Outcome.jmbuf?)).filterMap fun x => x.2.map (x.1, ·) := by
  rw [packs_allCalls, List.map_filterMap, List.zip_map_right, List.filterMap_map]
  refine List.filterMap_congr fun x _ => ?_
  show (x.2.packed?.map (x.1, ·)).map (fun x => (x.1, x.2.jmbuf)) = x.2.jmbuf?.map (x.1, ·)
  rw [Outcome.jmbuf?_eq, Option.map_map, Option.map_map]
  rfl

/-- What was serialized with success is what is sent. -/
theorem Filled.messages (h : Filled net pool es os s) :
    (((allCalls es os).filterMap IoCall.pack?).filter fun x => 0 < x.2.msgSize.toInt).map
        (fun x => message net x.2)
      = (queue os).map (message net) := by
  have hqueue : (queue os).map (message net)
      = (es.zip os).filterMap fun x => x.2.queued?.map (message net) := by
    rw [queue, List.map_filterMap]
    conv_lhs => rw [← List.map_snd_zip h.length.le, List.filterMap_map]
    rfl
  rw [packs_allCalls, List.filter_filterMap, List.map_filterMap, hqueue]
  refine List.filterMap_congr fun x hx => ?_
  rw [← Outcome.packed?_filter (h.fits x.2 (List.of_mem_zip hx).2)]
  rw [Option.filter_map, Option.map_map]
  rfl

/-- **THE LEDGER** of the mbufs is closed by the last loop. -/
theorem Filled.ledger_batchCalls (h : Filled net pool es os s) (sentMessages : Int)
    (strerror : String) :
    Ledgers.run ∅ (JrtcNorthIo.ledger (batchCalls net sentMessages strerror es os))
      = some ∅ := by
  have huse : ∀ m ∈ ((queue os).map (message net)).flatMap fun m => m.iov.map Segment.jmbuf,
      m ∈ held os := by
    intro m hm
    obtain ⟨msg, hmsg, hm⟩ := List.mem_flatMap.mp hm
    obtain ⟨x, hx, rfl⟩ := List.mem_map.mp hmsg
    rw [List.mem_singleton.mp hm]
    exact List.mem_toFinset.mpr (List.mem_map_of_mem hx)
  have hfree : ((queue os).map fun x => IoCall.mbufFree x.jmbuf).filterMap ledgerOp
      = ((queue os).map Packed.jmbuf).map .give := by
    rw [List.filterMap_map, List.map_map, ← List.filterMap_eq_map]
    rfl
  have hledger := h.ledger
  rw [h.log] at hledger
  rw [JrtcNorthIo.ledger, filterMap_batchCalls (fun _ => rfl), List.append_assoc, run_append]
  refine (congrArg (Option.bind · _) hledger).trans ?_
  rw [hfree]
  exact (run_use huse _).trans (run_give h.nodup)

/-- The ledger counts the calls. -/
theorem count_take_ledger (calls : List IoCall) (m : Mbuf) :
    (ledger calls).count (.take m) = (calls.filterMap IoCall.alloc?).count (some m) := by
  refine count_filterMap_congr (fun c => ?_) calls
  cases c with
  | mbufAlloc jmbuf => cases jmbuf <;> simp [ledgerOp, IoCall.alloc?]
  | _ => simp [ledgerOp, IoCall.alloc?]

theorem count_give_ledger (calls : List IoCall) (m : Mbuf) :
    (ledger calls).count (.give m) = (calls.filterMap IoCall.free?).count m := by
  refine count_filterMap_congr (fun c => ?_) calls
  cases c with
  | mbufAlloc jmbuf => cases jmbuf <;> simp [ledgerOp, IoCall.free?]
  | _ => simp [ledgerOp, IoCall.free?]

/-- **EVERY LIST OF OUTCOMES** the code can meet forwards the entries. -/
theorem Filled.forwards (h : Filled net pool es os s) (sentMessages : Int) (strerror : String) :
    Forwards net es (batchCalls net sentMessages strerror es os) := by
  have hallocs := filterMap_batchCalls_of_none (f := IoCall.alloc?) (fun _ => rfl)
    (fun _ _ => rfl) (fun _ => rfl) net sentMessages strerror es os
  have hpacks := filterMap_batchCalls_of_none (f := IoCall.pack?) (fun _ => rfl)
    (fun _ _ => rfl) (fun _ => rfl) net sentMessages strerror es os
  have hledger := h.ledger_batchCalls sentMessages strerror
  refine
    { released := ?_
      mbufs := hledger
      freedOnce := ?_
      asked := ?_
      packed := ?_
      sent := ?_ }
  · rw [filterMap_batchCalls_of_none (fun _ => rfl) (fun _ _ => rfl) (fun _ => rfl)]
    exact h.releases
  · intro m
    have hcount := count_take_add hledger m
    rw [count_take_ledger, count_give_ledger] at hcount
    exact hcount
  · rw [hallocs, h.allocs, List.length_map]
    exact h.length
  · rw [hpacks, hallocs, h.allocs]
    exact packs_map es os
  · have hnone : (allCalls es os).filterMap IoCall.send? = [] := by
      rw [filterMap_allCalls (g := fun _ => none) fun x => Outcome.filterMap_send x.1 x.2]
      exact List.filterMap_eq_nil_iff.mpr fun _ _ => rfl
    have hfree : ((queue os).map fun x => IoCall.mbufFree x.jmbuf).filterMap IoCall.send?
        = [] := by
      rw [List.filterMap_map]
      exact List.filterMap_eq_nil_iff.mpr fun _ _ => rfl
    rw [hpacks, h.messages, filterMap_batchCalls fun _ => rfl, hnone, hfree]
    rfl

/-- **`aa_channel_encode_fwd_out_data`** forwards every batch that fits its arrays. -/
theorem encode_forwards (net : NetInfo) (pool : Mempool) (env : Nat → EntryEnv)
    (sentMessages : Int) (strerror : String) (dataEntries : List DataEntry) (numEntries : Int)
    (hn : numEntries ≤ outBufsBatchSize) (hsize : numEntries ≤ dataEntries.length) :
    ∃ pool' calls,
      encodeFwdOutData net pool env sentMessages strerror dataEntries numEntries
        = .ok (pool', calls)
      ∧ pool'.free = pool.free
      ∧ Forwards net (dataEntries.take numEntries.toNat) calls := by
  obtain ⟨os, s, h, heq⟩ := encode_eq net pool env sentMessages strerror dataEntries hn hsize
  exact ⟨_, _, heq, rfl, h.forwards sentMessages strerror⟩

/-- Three entries: one sent, one for which there is no mbuf, one that does not serialize. -/
theorem encode_forwards_mixed :
    ∃ pool' calls,
      encodeFwdOutData ⟨5, ⟨2, 20788, 0x7f000001⟩⟩ ⟨{1, 2}, fun _ => []⟩
          (fun i => if i = 0 then ⟨some 1, fun _ _ => (2, [7, 8])⟩
            else if i = 1 then ⟨none, fun _ _ => (2, [9, 9])⟩
            else ⟨some 2, fun _ _ => (-1, [])⟩) 0 "Message too long"
          [⟨10, Vector.replicate 16 0⟩, ⟨11, Vector.replicate 16 0⟩,
            ⟨12, Vector.replicate 16 0⟩] 3
        = .ok (pool', calls)
      ∧ pool'.free = {1, 2}
      ∧ Forwards ⟨5, ⟨2, 20788, 0x7f000001⟩⟩
          [⟨10, Vector.replicate 16 0⟩, ⟨11, Vector.replicate 16 0⟩,
            ⟨12, Vector.replicate 16 0⟩] calls :=
  encode_forwards ⟨5, ⟨2, 20788, 0x7f000001⟩⟩ ⟨{1, 2}, fun _ => []⟩ _ 0 "Message too long" _ 3
    (by decide) (by decide)

/-! ## The loop of the app -/

/-- What `jrtc_start_app` keeps from one turn of its loop to the next. -/
structure NorthIo where
  app         : AppState
  dataEntries : List DataEntry
  numRcv      : BitVec 32
  pool        : Mempool

/-- What the libraries do in one turn. -/
structure TurnEnv where
  count        : InChannel → Nat → Nat
  entry        : Nat → EntryEnv
  sentMessages : Int
  strerror     : String

/-- One turn of the loop of `jrtc_start_app`, with the calls it makes. -/
def startAppTurn (net : NetInfo) (t : TurnEnv) (s : NorthIo) :
    Except Fault (NorthIo × List IoCall) := do
  let (numRcv, dataEntries, app) ← receive t.count s.app s.dataEntries
    (BitVec.ofNat 64 outBufsBatchSize)
  if 0 < numRcv.toInt then do
    let (pool, calls) ← encodeFwdOutData net s.pool t.entry t.sentMessages t.strerror
      dataEntries numRcv.toInt
    pure (⟨app, dataEntries, numRcv, pool⟩, calls)
  else pure (⟨app, dataEntries, numRcv, s.pool⟩, [])

/-- A turn from `s` to `s'`: it leaves the array and the mempool as large as they were,
    and the calls release what the router returned. -/
structure Turned (net : NetInfo) (t : TurnEnv) (s s' : NorthIo) (calls : List IoCall) :
    Prop where
  received : receive t.count s.app s.dataEntries (BitVec.ofNat 64 outBufsBatchSize)
    = .ok (s'.numRcv, s'.dataEntries, s'.app)
  length   : s'.dataEntries.length = outBufsBatchSize
  free     : s'.pool.free = s.pool.free
  mbufs    : Ledgers.run ∅ (ledger calls) = some ∅
  released : calls.filterMap IoCall.release?
    = ((s'.dataEntries.take s'.numRcv.toNat).map DataEntry.data).filter (· ≠ 0)

/-- **A TURN** never fails. -/
theorem exists_turned (net : NetInfo) (t : TurnEnv) {s : NorthIo}
    (hlen : s.dataEntries.length = outBufsBatchSize) :
    ∃ s' calls, startAppTurn net t s = .ok (s', calls) ∧ Turned net t s s' calls := by
  have hbatch : (BitVec.ofNat 64 outBufsBatchSize).toNat = outBufsBatchSize := rfl
  obtain ⟨k, hrecv, hk⟩ := @receive_eq (BitVec.ofNat 64 outBufsBatchSize) t.count s.app
    s.dataEntries (by decide) (by rw [hbatch, hlen])
  have hle := @length_received_le t.count s.app outBufsBatchSize
  rw [hbatch] at hrecv hk
  have hkle : k.toNat ≤ 100 := hk.trans_le hle
  have hint : k.toInt = k.toNat := BitVec.toInt_eq_toNat_of_lt (by omega)
  have hlen' : (received t.count s.app outBufsBatchSize
      ++ s.dataEntries.drop (received t.count s.app outBufsBatchSize).length).length
      = outBufsBatchSize := by
    rw [List.length_append, List.length_drop]
    omega
  have hbound : k.toInt ≤ outBufsBatchSize := by
    rw [hint]
    exact_mod_cast hkle
  by_cases hpos : 0 < k.toInt
  · obtain ⟨os, s', h, hencode⟩ := encode_eq net s.pool t.entry t.sentMessages t.strerror
      (received t.count s.app outBufsBatchSize
        ++ s.dataEntries.drop (received t.count s.app outBufsBatchSize).length) hbound
      (by rw [hlen']; exact hbound)
    have hforwards := h.forwards t.sentMessages t.strerror
    refine ⟨_, _, bind_eq_ok_iff.mpr ⟨_, hrecv, (if_pos hpos).trans
      (bind_eq_ok_iff.mpr ⟨_, hencode, rfl⟩)⟩, hrecv, hlen', rfl, hforwards.mbufs, ?_⟩
    rw [hforwards.released, hint]
    rfl
  · have hzero : k.toNat = 0 := by omega
    refine ⟨_, _, bind_eq_ok_iff.mpr ⟨_, hrecv, if_neg hpos⟩, hrecv, hlen', rfl, rfl, ?_⟩
    show [] = ((List.take k.toNat _).map DataEntry.data).filter (· ≠ 0)
    rw [hzero]
    rfl

/-- The app on a router, with the calls it has made. -/
structure NorthSys where
  sys         : ReceiveSys
  dataEntries : List DataEntry
  numRcv      : BitVec 32
  pool        : Mempool
  calls       : List IoCall

inductive NorthLabel where
  | router (l : ReceiveLabel)
  | turn (t : TurnEnv)

def isReceive : ReceiveLabel → Bool
  | .receive .. => true
  | _ => false

/-- Turns of the app, between which the router and the channels take steps of their own. -/
inductive NorthStep (net : NetInfo) : NorthSys → NorthLabel → NorthSys → Prop
  | router {s : NorthSys} {l : ReceiveLabel} {sys' : ReceiveSys} :
      isReceive l = false → ReceiveStep s.sys l sys' →
      NorthStep net s (.router l) { s with sys := sys' }
  | turn {s : NorthSys} {t : TurnEnv} {s' : NorthIo} {calls : List IoCall} :
      startAppTurn net t ⟨s.sys.app, s.dataEntries, s.numRcv, s.pool⟩ = .ok (s', calls) →
      NorthStep net s (.turn t)
        { sys := { s.sys with
            app := s'.app
            returned := s.sys.returned ++ s'.dataEntries.take s'.numRcv.toNat }
          dataEntries := s'.dataEntries
          numRcv := s'.numRcv
          pool := s'.pool
          calls := s.calls ++ calls }

/-- The app at the head of its loop: `data_entries` is zeroed. -/
def NorthSys.init (q : RegisteredQueue) (pool : Mempool) : NorthSys where
  sys := .init q
  dataEntries := List.replicate outBufsBatchSize ⟨0, Vector.replicate 16 0⟩
  numRcv := 0
  pool := pool
  calls := []

/-- What holds whenever the app is at the head of its loop. -/
structure Served (q : RegisteredQueue) (pool : Mempool) (s : NorthSys) : Prop where
  length   : s.dataEntries.length = outBufsBatchSize
  queue    : s.sys.app.queue.WellFormed q.appQueueSize
  /-- no entry of the router is lost or duplicated -/
  entries  : Conserved s.sys
  /-- the data of each entry that was returned was released, once -/
  released : s.calls.filterMap IoCall.release?
    = (s.sys.returned.map DataEntry.data).filter (· ≠ 0)
  /-- all mbufs are back in the mempool -/
  free     : s.pool.free = pool.free
  mbufs    : Ledgers.run ∅ (ledger s.calls) = some ∅

theorem served_step {net : NetInfo} {q : RegisteredQueue} {pool : Mempool} {s s' : NorthSys}
    {l : NorthLabel} (h : Served q pool s) (hst : NorthStep net s l s') : Served q pool s' := by
  cases hst with
  | @router l sys' hl hstep =>
      obtain ⟨hqueue, hentries⟩ := conserved_step h.queue h.entries hstep
      refine ⟨h.length, hqueue, hentries, ?_, h.free, h.mbufs⟩
      -- only a call of `jrtc_router_receive` adds to what was returned
      have hreturned : sys'.returned = s.sys.returned := by
        cases hstep with
        | receive => cases hl
        | _ => rfl
      show s.calls.filterMap IoCall.release? = (sys'.returned.map DataEntry.data).filter (· ≠ 0)
      rw [hreturned]
      exact h.released
  | @turn t s₁ calls hturn =>
      obtain ⟨s₂, calls₂, hturn₂, ht⟩ := exists_turned net t
        (s := ⟨s.sys.app, s.dataEntries, s.numRcv, s.pool⟩) h.length
      rw [hturn] at hturn₂
      cases hturn₂
      have hbatch : (BitVec.ofNat 64 outBufsBatchSize).toNat ≤ s.dataEntries.length := h.length.ge
      obtain ⟨hqueue, hentries⟩ := conserved_step h.queue h.entries
        (.receive (by decide) hbatch ht.received)
      refine ⟨ht.length, hqueue, hentries, ?_, ht.free.trans h.free, ?_⟩
      · show (s.calls ++ calls).filterMap IoCall.release?
          = ((s.sys.returned ++ s₁.dataEntries.take s₁.numRcv.toNat).map
              DataEntry.data).filter (· ≠ 0)
        rw [List.filterMap_append, List.map_append, List.filter_append, h.released, ht.released]
      · show Ledgers.run ∅ (ledger (s.calls ++ calls)) = some ∅
        rw [ledger_append, run_append, h.mbufs]
        exact ht.mbufs

/-- **OVER ANY NUMBER OF TURNS** each entry that the router returned was released once,
    and no mbuf is kept. -/
theorem served_run {net : NetInfo} {q : RegisteredQueue} {pool : Mempool}
    {tr : List (NorthSys × NorthLabel)} {s : NorthSys}
    (h : Runs.Run (NorthStep net) (.init q pool) tr s) : Served q pool s :=
  h.invariant (P := Served q pool)
    ⟨List.length_replicate, q.wf, conserved_init q, rfl, rfl, rfl⟩
    fun hs hst => served_step hs hst

/-- **THE APP** can always take another turn. -/
theorem exists_turn_of_run {net : NetInfo} {q : RegisteredQueue} {pool : Mempool}
    {tr : List (NorthSys × NorthLabel)} {s : NorthSys}
    (h : Runs.Run (NorthStep net) (.init q pool) tr s) (t : TurnEnv) :
    ∃ s', NorthStep net s (.turn t) s' := by
  obtain ⟨s', calls, hturn, -⟩ := exists_turned net t
    (s := ⟨s.sys.app, s.dataEntries, s.numRcv, s.pool⟩) (served_run h).length
  exact ⟨_, .turn hturn⟩

end JrtcNorthIo
