import JrtController.ReqTableProofs
import JrtController.AppQueueProofs

/-! # The router and its calls

    The state of `jrtc_router.c` and the calls apps and the router thread make on
    it, each run to completion: registering and leaving, requests, forwarding a
    batch, receiving, releasing a buffer.  `RouterStep` is the system they form;
    beside the router it keeps the histories the properties speak about.

    * `deliver_ctx`, `ctx_deliverAll` — what the inner loop does to each app's
      queue;
    * `iter_forwardLoop` — the iterator is exhausted by the first buffer;
    * `registerApp_cases` — a registration either changes nothing or takes the
      first clear bit;
    * `World.inv_run` — in every reachable state an id is taken iff an app is
      registered under it, and no two registrations share a serial number. -/

namespace JrtcRouter

open JrtcStreamId JrtcRouterLookup JrtcReqTable JrtcAppQueue Runs

/-- What the router uses of jbpf_io: the references to each buffer, and the
    history of releases. -/
structure JbpfIo where
  refs     : BufPtr → Int
  released : List BufPtr

namespace JbpfIo

/-- A buffer is handed over with one reference. -/
def arrive (io : JbpfIo) (buf : BufPtr) : JbpfIo :=
  { io with refs := Function.update io.refs buf (io.refs buf + 1) }

/-- `jbpf_io_channel_share_data_ptr`; the pointer it returns is its argument. -/
def shareDataPtr (io : JbpfIo) (buf : BufPtr) : JbpfIo :=
  { io with refs := Function.update io.refs buf (io.refs buf + 1) }

/-- `jbpf_io_channel_release_buf`. -/
def releaseBuf (io : JbpfIo) (buf : BufPtr) : JbpfIo :=
  { refs := Function.update io.refs buf (io.refs buf - 1),
    released := io.released ++ [buf] }

end JbpfIo

/-- `struct dapp_router_ctx`: the queue of an app and its id. -/
structure DappCtx where
  queue : RegisteredQueue
  appId : AppId

/-- `struct jrtc_router_ctx`: the request table with its scratch bitmap, the app
    registry, and jbpf_io. -/
structure RouterCtx where
  reqs         : ReqTable
  lookupResult : Finset AppId
  ctx          : AppId → Option DappCtx
  appBitmap    : Finset AppId
  io           : JbpfIo

-- ── Registering and leaving ───────────────────────────────────────────────────

/-- What the five allocations of a registration return. -/
structure AppAlloc where
  dapp       : Bool
  ringbuffer : Bool
  pool       : Bool
  outTable   : Bool
  inTable    : Bool
  deriving DecidableEq, Repr

/-- `_jrtc_router_reserve_new_app`: test and set the bits in turn. -/
def reserveNewApp (bitmap : Finset AppId) : Option (AppId × Finset AppId) :=
  match (List.finRange 128).find? (· ∉ bitmap) with
  | none => none
  | some i => some (i, insert i bitmap)

/-- `_jrtc_router_release_app`. -/
def releaseApp (st : RouterCtx) (appId : AppId) : RouterCtx :=
  { st with appBitmap := st.appBitmap.erase appId }

/-- `jrtc_router_register_app`, with the id of the context it returns.  Every
    failed allocation ends in the error exit that releases the id. -/
def registerApp (st : RouterCtx) (appQueueSize : Nat) (al : AppAlloc) :
    Option AppId × RouterCtx :=
  if h : appQueueSize ≤ maxAppQueueSize then
    match reserveNewApp st.appBitmap with
    | none => (none, st)
    | some (appId, bitmap) =>
        let st := { st with appBitmap := bitmap }
        if !al.dapp then (none, releaseApp st appId)
        else if !al.ringbuffer then (none, releaseApp st appId)
        else if !al.pool then (none, releaseApp st appId)
        else if !al.outTable then (none, releaseApp st appId)
        else if !al.inTable then (none, releaseApp st appId)
        else (some appId, { st with
          ctx := Function.update st.ctx appId (some ⟨.fresh appQueueSize h, appId⟩) })
  else (none, st)

/-- `jrtc_router_deregister_app`.  The queue goes with the context; the request
    table and the queued buffers are not looked at. -/
def deregisterApp (st : RouterCtx) (app : Option DappCtx) : RouterCtx :=
  match app with
  | none => st
  | some dapp =>
      releaseApp { st with ctx := Function.update st.ctx dapp.appId none } dapp.appId

-- ── Forwarding ────────────────────────────────────────────────────────────────

/-- `ck_bitmap_iterator_init`: the set bits still to be yielded, ascending. -/
def bitmapIterator (bitmap : Finset AppId) : List AppId :=
  (List.finRange 128).filter (· ∈ bitmap)

def DappCtx.post (dapp : DappCtx) (e : DataEntry) : DappCtx :=
  { dapp with queue := dapp.queue.post e }

/-- The body of the inner loop, for one bit of the result. -/
def deliver (sid : StreamId) (buf : BufPtr) (st : RouterCtx) (appId : AppId) :
    RouterCtx :=
  match st.ctx appId with
  | none => st
  | some dapp =>
      match dapp.queue.queue.mbufAlloc with
      | none => st
      | some _ => { st with
          ctx := Function.update st.ctx appId (some (dapp.post ⟨buf, sid⟩))
          io := st.io.shareDataPtr buf }

/-- The inner loop: `ck_bitmap_next` until it returns false.  The iterator is
    returned as the loop leaves it. -/
def deliverAll (sid : StreamId) (buf : BufPtr) :
    RouterCtx → List AppId → RouterCtx × List AppId
  | st, [] => (st, [])
  | st, appId :: iter => deliverAll sid buf (deliver sid buf st appId) iter

/-- One round of the outer loop. -/
def forwardBuf (sid : StreamId) (loop : RouterCtx × List AppId) (buf : BufPtr) :
    RouterCtx × List AppId :=
  let (st, iter) := deliverAll sid buf loop.1 loop.2
  ({ st with io := st.io.releaseBuf buf }, iter)

/-- The look-ups and the iterator, before the outer loop. -/
def forwardStart (st : RouterCtx) (sid : StreamId) : RouterCtx × List AppId :=
  let res := JrtcReqTable.lookupResult st.reqs sid
  ({ st with lookupResult := res }, bitmapIterator res)

/-- The outer loop over a batch; the iterator is not initialised again. -/
def forwardLoop (sid : StreamId) (loop : RouterCtx × List AppId)
    (bufs : List BufPtr) : RouterCtx × List AppId :=
  bufs.foldl (forwardBuf sid) loop

/-- `_jrtc_router_forward_msgs`. -/
def forwardMsgs (ioChannel : Bool) (st : RouterCtx) (sid : StreamId)
    (bufs : List BufPtr) : RouterCtx :=
  if !ioChannel || bufs.isEmpty then st
  else (forwardLoop sid (forwardStart st sid) bufs).1

-- ── Receiving and releasing ───────────────────────────────────────────────────

/-- The loop of `jrtc_router_receive` over the input channels: each has a stream
    id and its pending buffers, of which at most `JRTC_ROUTER_DATA_BATCH_SIZE`
    are taken. -/
def receiveInputs : Nat → List (StreamId × List BufPtr) → List DataEntry
  | _, [] => []
  | left, (sid, pending) :: rest =>
      if left = 0 then []
      else
        let got := pending.take (if 16 > left then left else 16)
        got.map (⟨·, sid⟩) ++ receiveInputs (left - got.length) rest

/-- `jrtc_router_receive`: the entries it returns, those that came from input
    channels, and the app's context afterwards. -/
def receive (dapp : DappCtx) (numEntries : Nat)
    (inputs : List (StreamId × List BufPtr)) :
    List DataEntry × List DataEntry × DappCtx :=
  let (fromRing, queue) := dapp.queue.receiveRing numEntries
  (fromRing, receiveInputs (numEntries - fromRing.length) inputs,
    { dapp with queue := queue })

/-! ## The system -/

/-- The router, with the histories its properties speak about. -/
structure World where
  router : RouterCtx
  /-- the serial number of the registration that last took an id -/
  serial : AppId → Nat
  nextSerial : Nat
  /-- the requests made and withdrawn, by registration -/
  log : List ((Nat × StreamId) × ReqOp)
  /-- the entries received and not released yet, by registration -/
  held : List (Nat × DataEntry)

/-- The calls, with their arguments and what the environment returns. -/
inductive RouterCall where
  | registerApp (appQueueSize : Nat) (al : AppAlloc)
  | deregisterApp (appId : AppId)
  | registerReq (appId : AppId) (r : StreamId) (al : ReqAlloc)
  | deregisterReq (appId : AppId) (r : StreamId)
  | forward (sid : StreamId) (bufs : List BufPtr)
  | receive (appId : AppId) (numEntries : Nat) (inputs : List (StreamId × List BufPtr))
  | releaseBuf (holder : Nat) (e : DataEntry)

/-- `jrtc_router_init`. -/
def World.init : World where
  router := ⟨fun _ => none, ∅, fun _ => none, ∅, ⟨fun _ => 0, []⟩⟩
  serial := fun _ => 0
  nextSerial := 0
  log := []
  held := []

/-- A registration that succeeds takes the next serial number. -/
def World.registered (w : World) : Option AppId × RouterCtx → World
  | (none, st) => { w with router := st }
  | (some appId, st) => { w with
      router := st, serial := Function.update w.serial appId w.nextSerial,
      nextSerial := w.nextSerial + 1 }

/-- One call.  Apps call with the context they were registered with and only
    while they are registered, and release what they received, once. -/
inductive RouterStep : World → RouterCall → World → Prop
  | registerApp {w : World} {appQueueSize : Nat} {al : AppAlloc} :
      RouterStep w (.registerApp appQueueSize al)
        (w.registered (registerApp w.router appQueueSize al))
  | deregisterApp {w : World} {a : AppId} {dapp : DappCtx} :
      w.router.ctx a = some dapp →
      RouterStep w (.deregisterApp a)
        { w with router := deregisterApp w.router (some dapp) }
  | registerReq {w : World} {a : AppId} {dapp : DappCtx} {r : StreamId}
      {al : ReqAlloc} {res : Int} {reqs : ReqTable} :
      w.router.ctx a = some dapp →
      channelRegisterStreamIdReq w.router.reqs (some dapp.appId.val) r al = (res, reqs) →
      RouterStep w (.registerReq a r al)
        { w with
          router := { w.router with reqs := reqs }
          log := if res = 1 then w.log ++ [((w.serial a, r), .register)] else w.log }
  | deregisterReq {w : World} {a : AppId} {dapp : DappCtx} {r : StreamId} :
      w.router.ctx a = some dapp →
      RouterStep w (.deregisterReq a r)
        { w with
          router := { w.router with
            reqs := channelDeregisterStreamIdReq w.router.reqs (some dapp.appId.val) r }
          log := w.log ++ [((w.serial a, r), .deregister)] }
  | forward {w : World} {sid : StreamId} {bufs : List BufPtr} :
      RouterStep w (.forward sid bufs)
        { w with
          router := forwardMsgs true
            { w.router with io := bufs.foldl JbpfIo.arrive w.router.io } sid bufs }
  | receive {w : World} {a : AppId} {dapp dapp' : DappCtx} {numEntries : Nat}
      {inputs : List (StreamId × List BufPtr)} {fromRing fromInputs : List DataEntry} :
      w.router.ctx a = some dapp →
      receive dapp numEntries inputs = (fromRing, fromInputs, dapp') →
      RouterStep w (.receive a numEntries inputs)
        { w with
          router := { w.router with
            ctx := Function.update w.router.ctx a (some dapp')
            io := (fromInputs.map DataEntry.data).foldl JbpfIo.arrive w.router.io }
          held := w.held ++ (fromRing ++ fromInputs).map (w.serial a, ·) }
  | releaseBuf {w : World} {holder : Nat} {e : DataEntry} :
      (holder, e) ∈ w.held →
      RouterStep w (.releaseBuf holder e)
        { w with
          router := { w.router with io := w.router.io.releaseBuf e.data }
          held := w.held.erase (holder, e) }

-- ── What the inner loop does ──────────────────────────────────────────────────

/-- The inner loop's body either does nothing, for lack of an app or of a free
    mbuf, or posts one share of the buffer to the app. -/
theorem deliver_cases (sid : StreamId) (buf : BufPtr) (st : RouterCtx) (a : AppId) :
    (deliver sid buf st a = st
      ∧ ∀ dapp, st.ctx a = some dapp → dapp.queue.queue.free = [])
    ∨ ∃ dapp, st.ctx a = some dapp ∧ dapp.queue.queue.free ≠ []
      ∧ deliver sid buf st a = { st with
          ctx := Function.update st.ctx a (some (dapp.post ⟨buf, sid⟩))
          io := st.io.shareDataPtr buf } := by
  cases hctx : st.ctx a with
  | none => exact Or.inl ⟨by rw [deliver, hctx], fun _ h => nomatch h⟩
  | some dapp =>
      cases hfree : dapp.queue.queue.free with
      | nil =>
          refine Or.inl ⟨by simp only [deliver, hctx, AppQueue.mbufAlloc, hfree], ?_⟩
          rintro _ ⟨⟩
          exact hfree
      | cons m rest =>
          refine Or.inr ⟨dapp, rfl, by simp [hfree], ?_⟩
          simp only [deliver, hctx, AppQueue.mbufAlloc, hfree]

/-- On the registry, `deliver` posts to the app if there is one: with an empty
    pool a post changes nothing. -/
theorem deliver_ctx (sid : StreamId) (buf : BufPtr) (st : RouterCtx) (a : AppId) :
    (deliver sid buf st a).ctx
      = Function.update st.ctx a ((st.ctx a).map (·.post ⟨buf, sid⟩)) := by
  rcases deliver_cases sid buf st a with ⟨heq, hfree⟩ | ⟨dapp, hctx, -, heq⟩
  · rw [heq]
    refine (Function.update_eq_self_iff.mpr ?_).symm
    cases hctx : st.ctx a with
    | none => rfl
    | some dapp =>
        obtain ⟨⟨q, n, hwf⟩, id⟩ := dapp
        simp only [Option.map_some, DappCtx.post, RegisteredQueue.post,
          AppQueue.post_of_exhausted (hfree _ hctx)]
  · rw [heq, hctx]
    rfl

/-- The inner loop visits each bit once. -/
theorem ctx_deliverAll (sid : StreamId) (buf : BufPtr) {iter : List AppId}
    (hnd : iter.Nodup) (st : RouterCtx) (a : AppId) :
    (deliverAll sid buf st iter).1.ctx a
      = if a ∈ iter then (st.ctx a).map (·.post ⟨buf, sid⟩) else st.ctx a := by
  induction iter generalizing st with
  | nil => rfl
  | cons b iter ih =>
      obtain ⟨hb, hnd'⟩ := List.nodup_cons.mp hnd
      rw [deliverAll, ih hnd', deliver_ctx]
      by_cases hab : a = b
      · rw [hab, if_neg hb, if_pos (List.mem_cons_self ..), Function.update_self]
      · rw [Function.update_of_ne hab]
        simp only [List.mem_cons, or_iff_right hab]

/-- The inner loop always ends with the iterator exhausted. -/
theorem iter_deliverAll (sid : StreamId) (buf : BufPtr) (st : RouterCtx)
    (iter : List AppId) : (deliverAll sid buf st iter).2 = [] := by
  induction iter generalizing st with
  | nil => rfl
  | cons b iter ih => exact ih _

theorem bitmapIterator_nodup (bitmap : Finset AppId) : (bitmapIterator bitmap).Nodup :=
  (List.nodup_finRange 128).filter _

theorem mem_bitmapIterator {bitmap : Finset AppId} {a : AppId} :
    a ∈ bitmapIterator bitmap ↔ a ∈ bitmap := by
  simp [bitmapIterator]

/-- The iterator after a non-empty batch, or part of one, is exhausted. -/
theorem iter_forwardLoop (sid : StreamId) (loop : RouterCtx × List AppId)
    {bufs : List BufPtr} (h : bufs ≠ []) : (forwardLoop sid loop bufs).2 = [] := by
  obtain ⟨init, last, rfl⟩ := (List.eq_nil_or_concat' bufs).resolve_left h
  rw [forwardLoop, List.foldl_append]
  exact iter_deliverAll _ _ _ _

-- ── Frames ────────────────────────────────────────────────────────────────────

/-- Which apps are registered, and under which ids, according to `ctx`. -/
def owner (st : RouterCtx) (a : AppId) : Option AppId := (st.ctx a).map DappCtx.appId

/-- The registry and the request table are as before; queues may differ. -/
structure SameRegistry (st st' : RouterCtx) : Prop where
  appBitmap : st'.appBitmap = st.appBitmap
  owner     : ∀ a, owner st' a = owner st a
  reqs      : st'.reqs = st.reqs

theorem SameRegistry.trans {st st' st'' : RouterCtx} (h : SameRegistry st st')
    (h' : SameRegistry st' st'') : SameRegistry st st'' :=
  ⟨h'.appBitmap.trans h.appBitmap, fun a => (h'.owner a).trans (h.owner a),
    h'.reqs.trans h.reqs⟩

theorem owner_update {ctx : AppId → Option DappCtx} {a : AppId} {dapp dapp' : DappCtx}
    (hctx : ctx a = some dapp) (hid : dapp'.appId = dapp.appId) (b : AppId) :
    (Function.update ctx a (some dapp') b).map DappCtx.appId
      = (ctx b).map DappCtx.appId := by
  by_cases hb : b = a
  · rw [hb, Function.update_self, hctx, Option.map_some, Option.map_some, hid]
  · rw [Function.update_of_ne hb]

theorem sameRegistry_deliver (sid : StreamId) (buf : BufPtr) (st : RouterCtx)
    (a : AppId) : SameRegistry st (deliver sid buf st a) := by
  rcases deliver_cases sid buf st a with ⟨heq, -⟩ | ⟨dapp, hctx, -, heq⟩
  · rw [heq]
    exact ⟨rfl, fun _ => rfl, rfl⟩
  · rw [heq]
    exact ⟨rfl, owner_update hctx rfl, rfl⟩

theorem sameRegistry_deliverAll (sid : StreamId) (buf : BufPtr) (st : RouterCtx)
    (iter : List AppId) : SameRegistry st (deliverAll sid buf st iter).1 := by
  induction iter generalizing st with
  | nil => exact ⟨rfl, fun _ => rfl, rfl⟩
  | cons a iter ih => exact (sameRegistry_deliver sid buf st a).trans (ih _)

theorem sameRegistry_forwardLoop (sid : StreamId) (loop : RouterCtx × List AppId)
    (bufs : List BufPtr) : SameRegistry loop.1 (forwardLoop sid loop bufs).1 := by
  induction bufs generalizing loop with
  | nil => exact ⟨rfl, fun _ => rfl, rfl⟩
  | cons buf bufs ih =>
      have hall := sameRegistry_deliverAll sid buf loop.1 loop.2
      have hone : SameRegistry loop.1 (forwardBuf sid loop buf).1 :=
        ⟨hall.appBitmap, hall.owner, hall.reqs⟩
      exact hone.trans (ih (forwardBuf sid loop buf))

theorem sameRegistry_forwardMsgs (ioChannel : Bool) (st : RouterCtx) (sid : StreamId)
    (bufs : List BufPtr) : SameRegistry st (forwardMsgs ioChannel st sid bufs) := by
  unfold forwardMsgs
  split
  · exact ⟨rfl, fun _ => rfl, rfl⟩
  · have hloop := sameRegistry_forwardLoop sid (forwardStart st sid) bufs
    exact ⟨hloop.appBitmap, hloop.owner, hloop.reqs⟩

theorem receive_appId {dapp dapp' : DappCtx} {numEntries : Nat}
    {inputs : List (StreamId × List BufPtr)} {fromRing fromInputs : List DataEntry}
    (h : receive dapp numEntries inputs = (fromRing, fromInputs, dapp')) :
    dapp'.appId = dapp.appId := by
  obtain ⟨-, h⟩ := Prod.mk.inj h
  obtain ⟨-, rfl⟩ := Prod.mk.inj h
  rfl

/-- A registration either changes nothing or takes a clear bit and installs a
    fresh context under it. -/
theorem registerApp_cases (st : RouterCtx) (appQueueSize : Nat) (al : AppAlloc) :
    registerApp st appQueueSize al = (none, st)
      ∨ ∃ a h, a ∉ st.appBitmap
          ∧ registerApp st appQueueSize al = (some a, { st with
              appBitmap := insert a st.appBitmap
              ctx := Function.update st.ctx a (some ⟨.fresh appQueueSize h, a⟩) }) := by
  unfold registerApp reserveNewApp
  by_cases hsize : appQueueSize ≤ maxAppQueueSize
  · rw [dif_pos hsize]
    cases hfind : (List.finRange 128).find? (· ∉ st.appBitmap) with
    | none => exact Or.inl rfl
    | some a =>
        have ha : a ∉ st.appBitmap := by simpa using List.find?_some hfind
        -- the error exits undo the reservation
        have hundo : releaseApp { st with appBitmap := insert a st.appBitmap } a = st := by
          simp only [releaseApp, Finset.erase_insert ha]
        simp only [hundo]
        split
        · exact Or.inl rfl
        split
        · exact Or.inl rfl
        split
        · exact Or.inl rfl
        split
        · exact Or.inl rfl
        split
        · exact Or.inl rfl
        · exact Or.inr ⟨a, hsize, ha, rfl⟩
  · rw [dif_neg hsize]
    exact Or.inl rfl

/-- A registration succeeds iff the queue is not too large, an id is free and all
    allocations succeed. -/
theorem registerApp_eq_none_iff (st : RouterCtx) (appQueueSize : Nat) (al : AppAlloc) :
    (registerApp st appQueueSize al).1 = none
      ↔ ¬ (appQueueSize ≤ maxAppQueueSize ∧ (∃ a, a ∉ st.appBitmap)
          ∧ al = ⟨true, true, true, true, true⟩) := by
  unfold registerApp reserveNewApp
  by_cases hsize : appQueueSize ≤ maxAppQueueSize
  · rw [dif_pos hsize]
    cases hfind : (List.finRange 128).find? (· ∉ st.appBitmap) with
    | none =>
        refine iff_of_true rfl ?_
        rintro ⟨-, ⟨a, ha⟩, -⟩
        exact List.find?_eq_none.mp hfind a (List.mem_finRange a) (decide_eq_true ha)
    | some a =>
        have ha : a ∉ st.appBitmap := by simpa using List.find?_some hfind
        have hfree : ∃ a, a ∉ st.appBitmap := ⟨a, ha⟩
        simp only [hsize, hfree, true_and]
        obtain ⟨dapp, ringbuffer, pool, outTable, inTable⟩ := al
        cases dapp with
        | false => simp
        | true =>
            cases ringbuffer with
            | false => simp
            | true =>
                cases pool with
                | false => simp
                | true =>
                    cases outTable with
                    | false => simp
                    | true =>
                        cases inTable with
                        | false => simp
                        | true => simp
  · rw [dif_neg hsize]
    exact iff_of_true rfl fun h => hsize h.1

/-! ## The registry in every reachable state -/

/-- An id is taken iff an app is registered under it, and registrations are told
    apart by their serial numbers. -/
structure World.Inv (w : World) : Prop where
  owner : ∀ a, owner w.router a = if a ∈ w.router.appBitmap then some a else none
  serial_lt : ∀ a ∈ w.router.appBitmap, w.serial a < w.nextSerial
  serial_inj : ∀ a ∈ w.router.appBitmap, ∀ b ∈ w.router.appBitmap,
    w.serial a = w.serial b → a = b
  log_lt : ∀ x ∈ w.log, x.1.1 < w.nextSerial

theorem World.inv_init : World.init.Inv :=
  ⟨fun _ => rfl, fun _ h => (Finset.notMem_empty _ h).elim,
    fun _ h => (Finset.notMem_empty _ h).elim, fun _ h => (List.not_mem_nil h).elim⟩

namespace World.Inv

variable {w w' : World} {a : AppId} {dapp : DappCtx}

theorem registered (h : w.Inv) (hctx : w.router.ctx a = some dapp) :
    a ∈ w.router.appBitmap ∧ dapp.appId = a := by
  have howner := h.owner a
  rw [JrtcRouter.owner, hctx, Option.map_some] at howner
  by_cases ha : a ∈ w.router.appBitmap
  · rw [if_pos ha] at howner
    exact ⟨ha, Option.some.inj howner⟩
  · rw [if_neg ha] at howner
    exact absurd howner (Option.some_ne_none _)

theorem ctx_of_mem (h : w.Inv) (ha : a ∈ w.router.appBitmap) :
    ∃ dapp, w.router.ctx a = some dapp := by
  have howner := h.owner a
  rw [if_pos ha, JrtcRouter.owner, Option.map_eq_some_iff] at howner
  exact howner.imp fun _ hd => hd.1

/-- Calls that leave the registry alone keep the invariant. -/
theorem of_frame (h : w.Inv) (hbits : w'.router.appBitmap = w.router.appBitmap)
    (howner : ∀ a, JrtcRouter.owner w'.router a = JrtcRouter.owner w.router a)
    (hserial : w'.serial = w.serial) (hnext : w'.nextSerial = w.nextSerial)
    (hlog : ∀ x ∈ w'.log, x.1.1 < w.nextSerial) : w'.Inv := by
  refine ⟨?_, ?_, ?_, ?_⟩
  · intro a
    rw [howner, hbits]
    exact h.owner a
  · rw [hbits, hserial, hnext]
    exact h.serial_lt
  · rw [hbits, hserial]
    exact h.serial_inj
  · rw [hnext]
    exact hlog

/-- Recording an operation of a registered app. -/
theorem log_append (h : w.Inv) (ha : a ∈ w.router.appBitmap) (r : StreamId)
    (op : ReqOp) : ∀ x ∈ w.log ++ [((w.serial a, r), op)], x.1.1 < w.nextSerial := by
  intro x hx
  rcases List.mem_append.mp hx with hx | hx
  · exact h.log_lt x hx
  · rw [List.mem_singleton.mp hx]
    exact h.serial_lt a ha

theorem registerApp (h : w.Inv) (appQueueSize : Nat) (al : AppAlloc) :
    (w.registered (JrtcRouter.registerApp w.router appQueueSize al)).Inv := by
  rcases registerApp_cases w.router appQueueSize al with heq | ⟨a, hsize, ha, heq⟩
  · rw [heq]
    exact h
  · rw [heq]
    have hother : ∀ b ∈ w.router.appBitmap, b ≠ a := fun b hb hba => ha (hba ▸ hb)
    refine ⟨?_, ?_, ?_, ?_⟩
    · intro b
      show (Function.update w.router.ctx a _ b).map DappCtx.appId
        = if b ∈ insert a w.router.appBitmap then some b else none
      by_cases hb : b = a
      · rw [hb, Function.update_self, if_pos (Finset.mem_insert_self ..)]
        rfl
      · rw [Function.update_of_ne hb]
        simp only [Finset.mem_insert, or_iff_right hb]
        exact h.owner b
    · intro b hb
      show Function.update w.serial a w.nextSerial b < w.nextSerial + 1
      rcases Finset.mem_insert.mp hb with rfl | hb
      · rw [Function.update_self]
        exact Nat.lt_succ_self _
      · rw [Function.update_of_ne (hother b hb)]
        exact Nat.lt_succ_of_lt (h.serial_lt b hb)
    · intro b hb c hc hbc
      replace hbc : Function.update w.serial a w.nextSerial b
        = Function.update w.serial a w.nextSerial c := hbc
      rcases Finset.mem_insert.mp hb with hba | hb
      · rcases Finset.mem_insert.mp hc with hca | hc
        · rw [hba, hca]
        · rw [hba, Function.update_self, Function.update_of_ne (hother c hc)] at hbc
          exact absurd hbc.symm (Nat.ne_of_lt (h.serial_lt c hc))
      · rcases Finset.mem_insert.mp hc with hca | hc
        · rw [hca] at hbc
          rw [Function.update_self, Function.update_of_ne (hother b hb)] at hbc
          exact absurd hbc (Nat.ne_of_lt (h.serial_lt b hb))
        · rw [Function.update_of_ne (hother b hb),
            Function.update_of_ne (hother c hc)] at hbc
          exact h.serial_inj b hb c hc hbc
    · exact fun x hx => Nat.lt_succ_of_lt (h.log_lt x hx)

theorem deregisterApp (h : w.Inv) (hctx : w.router.ctx a = some dapp) :
    ({ w with router := JrtcRouter.deregisterApp w.router (some dapp) } : World).Inv := by
  obtain ⟨-, rfl⟩ := h.registered hctx
  refine ⟨?_, ?_, ?_, h.log_lt⟩
  · intro b
    show (Function.update w.router.ctx dapp.appId none b).map DappCtx.appId
      = if b ∈ w.router.appBitmap.erase dapp.appId then some b else none
    by_cases hb : b = dapp.appId
    · rw [hb, Function.update_self, if_neg (Finset.notMem_erase _ _)]
      rfl
    · rw [Function.update_of_ne hb]
      simp only [Finset.mem_erase, ne_eq, hb, not_false_eq_true, true_and]
      exact h.owner b
  · exact fun b hb => h.serial_lt b (Finset.mem_of_mem_erase hb)
  · exact fun b hb c hc => h.serial_inj b (Finset.mem_of_mem_erase hb) c
      (Finset.mem_of_mem_erase hc)

end World.Inv

theorem World.inv_step {w w' : World} {l : RouterCall} (h : w.Inv)
    (hs : RouterStep w l w') : w'.Inv := by
  cases hs with
  | @registerApp appQueueSize al => exact h.registerApp appQueueSize al
  | deregisterApp hctx => exact h.deregisterApp hctx
  | @registerReq appId dapp r al res reqs hctx hreq =>
      refine h.of_frame rfl (fun _ => rfl) rfl rfl ?_
      show ∀ x ∈ (if res = 1 then _ else w.log), _
      split
      · exact h.log_append (h.registered hctx).1 r .register
      · exact h.log_lt
  | @deregisterReq appId dapp r hctx =>
      refine h.of_frame rfl (fun _ => by rw [owner, owner]) rfl rfl ?_
      exact h.log_append (h.registered hctx).1 r .deregister
  | @forward sid bufs =>
      have hsame := sameRegistry_forwardMsgs true
        { w.router with io := bufs.foldl JbpfIo.arrive w.router.io } sid bufs
      refine h.of_frame ?_ ?_ rfl rfl h.log_lt
      · exact hsame.appBitmap
      · exact hsame.owner
  | receive hctx hrecv =>
      exact h.of_frame rfl (owner_update hctx (receive_appId hrecv)) rfl rfl h.log_lt
  | releaseBuf hheld => exact h.of_frame rfl (fun _ => rfl) rfl rfl h.log_lt

/-- The registry invariant holds in every state of every run. -/
theorem World.inv_run {tr : List (World × RouterCall)} {w : World}
    (h : Run RouterStep World.init tr w) : w.Inv :=
  h.invariant World.inv_init World.inv_step

-- ── A short run ───────────────────────────────────────────────────────────────

/-- While no id is taken, a registration takes id 0. -/
theorem registerApp_of_empty {st : RouterCtx} (hst : st.appBitmap = ∅) {n : Nat}
    (hn : n ≤ maxAppQueueSize) :
    registerApp st n ⟨true, true, true, true, true⟩ = (some 0, { st with
      appBitmap := {0}
      ctx := Function.update st.ctx 0 (some ⟨.fresh n hn, 0⟩) }) := by
  have hfind : (List.finRange (127 + 1)).find? (· ∉ (∅ : Finset AppId)) = some 0 := by
    rw [List.finRange_succ, List.find?_cons_of_pos (by simp)]
  have hreserve : reserveNewApp ∅ = some (0, {0}) := by
    simp only [reserveNewApp, hfind]
    rfl
  rw [registerApp, dif_pos hn, hst, hreserve]
  rfl

/-- One app registers and makes one request. -/
theorem subscribed_run {n : Nat} (hn : n ≤ maxAppQueueSize) (r : StreamId) :
    ∃ tr w, Run RouterStep World.init tr w
      ∧ (∀ x ∈ tr, ∀ a, x.2 ≠ .deregisterApp a)
      ∧ w.router.ctx 0 = some ⟨.fresh n hn, 0⟩
      ∧ 0 ∈ lookupResult w.router.reqs r
      ∧ w = { World.init with
          router := { World.init.router with
            reqs := Function.update (fun _ => none) r (some {0})
            appBitmap := {0}
            ctx := Function.update (fun _ => none) 0 (some ⟨.fresh n hn, 0⟩) }
          serial := Function.update (fun _ => 0) 0 0
          nextSerial := 1
          log := [((0, r), .register)] } := by
  have hreg : RouterStep World.init (.registerApp n ⟨true, true, true, true, true⟩) _ :=
    RouterStep.registerApp
  rw [registerApp_of_empty rfl hn] at hreg
  simp only [World.registered] at hreg
  have hone : channelRegisterStreamIdReq (fun _ => none) (some (0 : AppId).val) r
      ⟨true, true, true⟩ = (1, Function.update (fun _ => none) r (some {0})) := by
    rw [channelRegisterStreamIdReq, checkedAppId_val]
    rfl
  have hctx : Function.update (fun _ => none) 0 (some (DappCtx.mk (.fresh n hn) 0)) 0
      = some ⟨.fresh n hn, 0⟩ := Function.update_self _ _ _
  have hsub : 0 ∈ subscribers (Function.update (fun _ => none) r (some {0})) r := by
    rw [subscribers_update, if_pos rfl]
    exact Finset.mem_singleton_self 0
  refine ⟨_, _, (Run.start.next hreg).next (RouterStep.registerReq (a := 0) hctx hone),
    ?_, hctx, mem_lookupResult_self hsub, rfl⟩
  simp

end JrtcRouter
