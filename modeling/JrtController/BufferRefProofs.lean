import JrtController.RouterProofs

/-! # References to forwarded buffers

    A buffer arrives with one reference.  Forwarding shares it once per entry it
    queues and then drops the router's own reference; a receive moves entries
    from a ring to the app that reads it, which releases each of them later.

    * `balance` — the references to a buffer beyond the queued entries for it;
      `balance_forwardMsgs`, `conserved_receive` say how the calls move it;
    * `conserved_iff_drained` — on every run each reference belongs to an entry
      that is queued for a registered app or held, iff no app leaves with
      entries in its ring; then, if apps also release what they hold before they
      leave, a buffer nobody registered queues or holds has no references. -/

namespace JrtcBufferRef

open JrtcStreamId JrtcReqTable JrtcAppQueue JrtcRouter Runs

/-- How many of the entries are for the buffer. -/
def entriesFor (es : List DataEntry) (buf : BufPtr) : Nat :=
  (es.map DataEntry.data).count buf

/-- The entries for a buffer in the ring of an app, if there is one. -/
def queuedFor (app : Option DappCtx) (buf : BufPtr) : Nat :=
  match app with
  | none => 0
  | some dapp => entriesFor dapp.queue.queue.entries buf

/-- The entries for a buffer in the rings of all registered apps. -/
def queued (ctx : AppId → Option DappCtx) (buf : BufPtr) : Nat :=
  ∑ a, queuedFor (ctx a) buf

/-- The entries for a buffer that were received and not released yet. -/
def heldFor (held : List (Nat × DataEntry)) (buf : BufPtr) : Nat :=
  entriesFor (held.map Prod.snd) buf

/-- The references to each buffer are the entries queued or held for it. -/
def Conserved (w : World) : Prop :=
  ∀ buf, w.router.io.refs buf = queued w.router.ctx buf + heldFor w.held buf

/-- A buffer that no registered app queues or holds has no references. -/
def NoStrayRef (w : World) : Prop :=
  ∀ buf, (∀ a, queuedFor (w.router.ctx a) buf = 0) →
    (∀ a dapp, w.router.ctx a = some dapp →
      ∀ e, (w.serial a, e) ∈ w.held → e.data ≠ buf) →
    w.router.io.refs buf = 0

/-- An app that leaves has nothing in its ring. -/
def Drained (w : World) (l : RouterCall) : Prop :=
  ∀ a dapp, l = .deregisterApp a → w.router.ctx a = some dapp →
    dapp.queue.queue.ring = []

/-- An app that leaves has released everything it received. -/
def ReleasedAll (w : World) (l : RouterCall) : Prop :=
  ∀ a, l = .deregisterApp a → ∀ e, (w.serial a, e) ∉ w.held

-- ── Counting ──────────────────────────────────────────────────────────────────

theorem entriesFor_append (es es' : List DataEntry) (buf : BufPtr) :
    entriesFor (es ++ es') buf = entriesFor es buf + entriesFor es' buf := by
  rw [entriesFor, List.map_append, List.count_append]
  rfl

/-- Replacing the context of one app. -/
theorem queued_update (ctx : AppId → Option DappCtx) (a : AppId)
    (app : Option DappCtx) (buf : BufPtr) :
    queued (Function.update ctx a app) buf + queuedFor (ctx a) buf
      = queued ctx buf + queuedFor app buf := by
  have hcomp : (fun x => queuedFor (Function.update ctx a app x) buf)
      = Function.update (fun x => queuedFor (ctx x) buf) a (queuedFor app buf) := by
    funext x
    exact Function.apply_update (fun _ app => queuedFor app buf) ctx a app x
  rw [queued, hcomp, Finset.sum_update_of_mem (Finset.mem_univ a), queued,
    ← Finset.add_sum_erase _ _ (Finset.mem_univ a), Finset.sdiff_singleton_eq_erase]
  ring

theorem refs_arrive (io : JbpfIo) (bufs : List BufPtr) (buf : BufPtr) :
    (bufs.foldl JbpfIo.arrive io).refs buf = io.refs buf + bufs.count buf := by
  induction bufs generalizing io with
  | nil => simp
  | cons b bufs ih =>
      rw [List.foldl_cons, ih, List.count_cons]
      by_cases h : b = buf
      · subst h
        simp [JbpfIo.arrive]
        ring
      · simp [JbpfIo.arrive, h, Function.update_of_ne (Ne.symm h)]

/-- The references to a buffer beyond those of the queued entries for it. -/
def balance (st : RouterCtx) (buf : BufPtr) : Int :=
  st.io.refs buf - queued st.ctx buf

/-- A post queues one entry iff the pool has an mbuf. -/
theorem queuedFor_post (dapp : DappCtx) (e : DataEntry) (buf : BufPtr)
    (hfree : dapp.queue.queue.free ≠ []) :
    queuedFor (some (dapp.post e)) buf
      = queuedFor (some dapp) buf + if e.data = buf then 1 else 0 := by
  show entriesFor (dapp.queue.queue.post e).entries buf = _
  rw [dapp.queue.wf.post_entries hfree, entriesFor_append]
  show _ + [e.data].count buf = _ + _
  rw [List.count_singleton]
  simp [queuedFor]

/-- The share made for an entry is the entry's. -/
theorem balance_deliver (sid : StreamId) (b : BufPtr) (st : RouterCtx) (a : AppId)
    (buf : BufPtr) : balance (deliver sid b st a) buf = balance st buf := by
  rcases deliver_cases sid b st a with ⟨heq, -⟩ | ⟨dapp, hctx, hfree, heq⟩
  · rw [heq]
  · have hupd := queued_update st.ctx a (some (dapp.post ⟨b, sid⟩)) buf
    rw [hctx, queuedFor_post dapp ⟨b, sid⟩ buf hfree] at hupd
    rw [heq, balance, balance]
    by_cases h : b = buf
    · subst h
      simp only [JbpfIo.shareDataPtr, Function.update_self, if_true] at hupd ⊢
      omega
    · simp only [JbpfIo.shareDataPtr, Function.update_of_ne (Ne.symm h), if_neg h] at hupd ⊢
      omega

theorem balance_deliverAll (sid : StreamId) (b : BufPtr) (st : RouterCtx)
    (iter : List AppId) (buf : BufPtr) :
    balance (deliverAll sid b st iter).1 buf = balance st buf := by
  induction iter generalizing st with
  | nil => rfl
  | cons a iter ih => rw [deliverAll, ih, balance_deliver]

theorem balance_releaseBuf (st : RouterCtx) (b buf : BufPtr) :
    balance { st with io := st.io.releaseBuf b } buf
      = balance st buf - if b = buf then 1 else 0 := by
  show Function.update st.io.refs b (st.io.refs b - 1) buf - (queued st.ctx buf : Int)
    = st.io.refs buf - queued st.ctx buf - if b = buf then 1 else 0
  by_cases h : b = buf
  · subst h
    rw [Function.update_self, if_pos rfl]
    ring
  · rw [Function.update_of_ne (Ne.symm h), if_neg h, sub_zero]

/-- The outer loop gives up one reference per buffer of the batch. -/
theorem balance_forwardLoop (sid : StreamId) (loop : RouterCtx × List AppId)
    (bufs : List BufPtr) (buf : BufPtr) :
    balance (forwardLoop sid loop bufs).1 buf = balance loop.1 buf - bufs.count buf := by
  induction bufs generalizing loop with
  | nil => simp [forwardLoop]
  | cons b bufs ih =>
      have hone : balance (forwardBuf sid loop b).1 buf
          = balance loop.1 buf - if b = buf then 1 else 0 := by
        rw [← balance_deliverAll sid b loop.1 loop.2 buf]
        exact balance_releaseBuf _ b buf
      rw [forwardLoop, List.foldl_cons, ← forwardLoop, ih, hone, List.count_cons]
      by_cases h : b = buf
      · simp [h]
        ring
      · simp [h]

theorem balance_forwardMsgs (st : RouterCtx) (sid : StreamId) (bufs : List BufPtr)
    (buf : BufPtr) :
    balance (forwardMsgs true st sid bufs) buf = balance st buf - bufs.count buf := by
  cases bufs with
  | nil => simp [forwardMsgs]
  | cons b bufs => exact balance_forwardLoop sid (forwardStart st sid) (b :: bufs) buf

/-! ## One step -/

/-- In terms of the balance, conservation speaks of the held entries only. -/
theorem conserved_iff_balance (w : World) :
    Conserved w ↔ ∀ buf, balance w.router buf = heldFor w.held buf := by
  refine forall_congr' fun buf => ?_
  rw [balance]
  omega

/-- Replacing a context by one with the same entries for every buffer. -/
theorem conserved_of_ctx {w w' : World} (h : Conserved w) {a : AppId}
    {app : Option DappCtx} (hctx : w'.router.ctx = Function.update w.router.ctx a app)
    (hsame : ∀ buf, queuedFor app buf = queuedFor (w.router.ctx a) buf)
    (hrefs : w'.router.io.refs = w.router.io.refs) (hheld : w'.held = w.held) :
    Conserved w' := by
  intro buf
  have hupd := queued_update w.router.ctx a app buf
  rw [hsame buf] at hupd
  rw [hctx, hrefs, hheld, h buf, Nat.add_right_cancel hupd]

theorem conserved_registerApp {w : World} (hinv : w.Inv) (h : Conserved w)
    (appQueueSize : Nat) (al : AppAlloc) :
    Conserved (w.registered (registerApp w.router appQueueSize al)) := by
  rcases registerApp_cases w.router appQueueSize al with heq | ⟨a, hsize, ha, heq⟩
  · rw [heq]
    exact h
  · rw [heq]
    have hnone : w.router.ctx a = none := by
      have howner := hinv.owner a
      rw [if_neg ha] at howner
      exact Option.map_eq_none_iff.mp howner
    refine conserved_of_ctx h (a := a) rfl ?_ rfl rfl
    intro buf
    rw [hnone]
    rfl

/-- What an app takes out of its ring it holds afterwards, and what it takes from
    an input channel arrives with the reference it then holds. -/
theorem conserved_receive {w : World} (h : Conserved w) {a : AppId} {dapp dapp' : DappCtx}
    {numEntries : Nat} {inputs : List (StreamId × List BufPtr)}
    {fromRing fromInputs : List DataEntry} (hctx : w.router.ctx a = some dapp)
    (hrecv : receive dapp numEntries inputs = (fromRing, fromInputs, dapp')) :
    Conserved { w with
      router := { w.router with
        ctx := Function.update w.router.ctx a (some dapp')
        io := (fromInputs.map DataEntry.data).foldl JbpfIo.arrive w.router.io }
      held := w.held ++ (fromRing ++ fromInputs).map (w.serial a, ·) } := by
  intro buf
  obtain ⟨hring, hrest⟩ := Prod.mk.inj hrecv
  obtain ⟨-, hdapp⟩ := Prod.mk.inj hrest
  have hsplit : queuedFor (some dapp) buf
      = entriesFor fromRing buf + queuedFor (some dapp') buf := by
    rw [← hring, ← hdapp]
    show entriesFor dapp.queue.queue.entries buf = _
    rw [← AppQueue.receiveRing_entries dapp.queue.queue numEntries, entriesFor_append]
    rfl
  have hheld : heldFor (w.held ++ (fromRing ++ fromInputs).map (w.serial a, ·)) buf
      = heldFor w.held buf + (entriesFor fromRing buf + entriesFor fromInputs buf) := by
    have hsnd : ((fromRing ++ fromInputs).map (w.serial a, ·)).map Prod.snd
        = fromRing ++ fromInputs := by simp [Function.comp_def]
    rw [heldFor, List.map_append, hsnd, entriesFor_append, entriesFor_append]
    rfl
  have hupd := queued_update w.router.ctx a (some dapp') buf
  rw [hctx, hsplit] at hupd
  have hold := h buf
  show (List.foldl JbpfIo.arrive w.router.io (fromInputs.map DataEntry.data)).refs buf = _
  rw [refs_arrive, hheld]
  show w.router.io.refs buf + (entriesFor fromInputs buf : Int) = _
  push_cast
  omega

theorem conserved_releaseBuf {w : World} (h : Conserved w) {holder : Nat} {e : DataEntry}
    (hheld : (holder, e) ∈ w.held) :
    Conserved { w with
      router := { w.router with io := w.router.io.releaseBuf e.data }
      held := w.held.erase (holder, e) } := by
  refine (conserved_iff_balance _).mpr fun buf => ?_
  have hone : heldFor w.held buf
      = (if e.data = buf then 1 else 0) + heldFor (w.held.erase (holder, e)) buf := by
    have hperm := ((List.perm_cons_erase hheld).map Prod.snd).map DataEntry.data
    rw [heldFor, entriesFor, hperm.count_eq, List.map_cons, List.map_cons, List.count_cons]
    simp [heldFor, entriesFor, Nat.add_comm]
  have hold := (conserved_iff_balance w).mp h buf
  show balance { w.router with io := w.router.io.releaseBuf e.data } buf = _
  rw [balance_releaseBuf, hold, hone]
  push_cast
  ring

/-- An app that leaves takes the entries in its ring out of the count. -/
theorem queued_deregisterApp {w : World} (hinv : w.Inv) {a : AppId} {dapp : DappCtx}
    (hctx : w.router.ctx a = some dapp) (buf : BufPtr) :
    queued (deregisterApp w.router (some dapp)).ctx buf + queuedFor (some dapp) buf
      = queued w.router.ctx buf := by
  obtain ⟨-, rfl⟩ := hinv.registered hctx
  have hupd := queued_update w.router.ctx dapp.appId none buf
  rw [hctx] at hupd
  exact hupd.trans (Nat.add_zero _)

/-- Every call keeps the references conserved, unless an app leaves with entries
    in its ring. -/
theorem conserved_step {w w' : World} {l : RouterCall} (hinv : w.Inv) (h : Conserved w)
    (hC : Drained w l) (hs : RouterStep w l w') : Conserved w' := by
  cases hs with
  | @registerApp appQueueSize al => exact conserved_registerApp hinv h appQueueSize al
  | @deregisterApp a dapp hctx =>
      intro buf
      have hgone := queued_deregisterApp hinv hctx buf
      have hempty : queuedFor (some dapp) buf = 0 := by
        show entriesFor (dapp.queue.queue.ring.map _) buf = 0
        rw [hC a dapp rfl hctx]
        rfl
      rw [hempty, Nat.add_zero] at hgone
      show w.router.io.refs buf = _
      rw [h buf, ← hgone]
  | registerReq hctx hreq => exact fun buf => h buf
  | deregisterReq hctx => exact fun buf => h buf
  | @forward sid bufs =>
      refine (conserved_iff_balance _).mpr fun buf => ?_
      have hold := (conserved_iff_balance w).mp h buf
      show balance (forwardMsgs true
        { w.router with io := bufs.foldl JbpfIo.arrive w.router.io } sid bufs) buf = _
      rw [balance_forwardMsgs, ← hold, balance, refs_arrive, balance]
      ring
  | receive hctx hrecv => exact conserved_receive h hctx hrecv
  | releaseBuf hheld => exact conserved_releaseBuf h hheld

/-- An app that leaves with an entry in its ring leaves a reference nobody
    accounts for. -/
theorem not_conserved_step {w w' : World} {l : RouterCall} (hinv : w.Inv)
    (h : Conserved w) (hC : ¬ Drained w l) (hs : RouterStep w l w') : ¬ Conserved w' := by
  intro h'
  simp only [Drained, not_forall] at hC
  obtain ⟨a, dapp, rfl, hctx, hring⟩ := hC
  cases hs with
  | @deregisterApp _ dapp' hctx' =>
      obtain rfl := Option.some.inj (hctx'.symm.trans hctx)
      obtain ⟨m, rest, hm⟩ := List.exists_cons_of_ne_nil hring
      -- the buffer of the oldest entry
      have hpos : 0 < queuedFor (some dapp') (dapp'.queue.queue.mem m).data := by
        refine List.count_pos_iff.mpr (List.mem_map.mpr ⟨dapp'.queue.queue.mem m, ?_, rfl⟩)
        exact List.mem_map.mpr ⟨m, by rw [hm]; exact List.mem_cons_self .., rfl⟩
      have hgone := queued_deregisterApp hinv hctx' (dapp'.queue.queue.mem m).data
      have hbefore := h (dapp'.queue.queue.mem m).data
      have hafter : w.router.io.refs (dapp'.queue.queue.mem m).data
          = queued (deregisterApp w.router (some dapp')).ctx (dapp'.queue.queue.mem m).data
            + heldFor w.held (dapp'.queue.queue.mem m).data :=
        h' (dapp'.queue.queue.mem m).data
      omega

/-- Every held entry is held by an app that is still registered. -/
def HeldByRegistered (w : World) : Prop :=
  ∀ x ∈ w.held, ∃ a ∈ w.router.appBitmap, w.serial a = x.1

/-- Apps that release everything before they leave hold what they hold as
    registered apps. -/
theorem heldByRegistered_step {w w' : World} {l : RouterCall} (hinv : w.Inv)
    (h : HeldByRegistered w) (hC : ReleasedAll w l) (hs : RouterStep w l w') :
    HeldByRegistered w' := by
  cases hs with
  | @registerApp appQueueSize al =>
      rcases registerApp_cases w.router appQueueSize al with heq | ⟨a, hsize, ha, heq⟩
      · rw [heq]
        exact h
      · rw [heq]
        intro x hx
        obtain ⟨b, hb, hserial⟩ := h x hx
        have hba : b ≠ a := fun hba => ha (hba ▸ hb)
        refine ⟨b, Finset.mem_insert_of_mem hb, ?_⟩
        show Function.update w.serial a w.nextSerial b = x.1
        rw [Function.update_of_ne hba, hserial]
  | @deregisterApp a dapp hctx =>
      obtain ⟨-, rfl⟩ := hinv.registered hctx
      intro x hx
      obtain ⟨b, hb, hserial⟩ := h x hx
      refine ⟨b, Finset.mem_erase.mpr ⟨?_, hb⟩, hserial⟩
      rintro rfl
      exact hC dapp.appId rfl x.2 (hserial ▸ hx)
  | registerReq hctx hreq => exact fun x hx => h x hx
  | deregisterReq hctx => exact fun x hx => h x hx
  | @forward sid bufs =>
      have hsame := sameRegistry_forwardMsgs true
        { w.router with io := bufs.foldl JbpfIo.arrive w.router.io } sid bufs
      intro x hx
      obtain ⟨b, hb, hserial⟩ := h x hx
      exact ⟨b, hsame.appBitmap ▸ hb, hserial⟩
  | @receive a dapp dapp' numEntries inputs fromRing fromInputs hctx hrecv =>
      intro x hx
      rcases List.mem_append.mp hx with hx | hx
      · exact h x hx
      · obtain ⟨e, -, rfl⟩ := List.mem_map.mp hx
        exact ⟨a, (hinv.registered hctx).1, rfl⟩
  | releaseBuf hheld => exact fun x hx => h x (List.mem_of_mem_erase hx)

theorem noStrayRef_of_conserved {w : World} (hinv : w.Inv) (h : Conserved w)
    (hheld : HeldByRegistered w) : NoStrayRef w := by
  intro buf hqueued hholds
  have hq : queued w.router.ctx buf = 0 := Finset.sum_eq_zero fun a _ => hqueued a
  have hh : heldFor w.held buf = 0 := by
    refine List.count_eq_zero.mpr fun hmem => ?_
    obtain ⟨e, he, hdata⟩ := List.mem_map.mp hmem
    obtain ⟨x, hx, rfl⟩ := List.mem_map.mp he
    obtain ⟨a, ha, hserial⟩ := hheld x hx
    obtain ⟨dapp, hctx⟩ := hinv.ctx_of_mem ha
    exact hholds a dapp hctx x.2 (hserial ▸ hx) hdata
  rw [h buf, hq, hh]
  rfl

/-! ## Every run -/

theorem conserved_init : Conserved World.init := by
  intro buf
  have hq : queued (fun _ => none) buf = 0 := Finset.sum_eq_zero fun _ _ => rfl
  show (0 : Int) = queued (fun _ => none) buf + heldFor [] buf
  rw [hq]
  rfl

/-- **REFERENCES ARE CONSERVED** all along a run iff no app leaves during it with
    entries in its ring.  If moreover every app that leaves has released what it
    received, a buffer no registered app queues or holds has no references. -/
theorem conserved_iff_drained {tr : List (World × RouterCall)} {w : World}
    (h : Run RouterStep World.init tr w) :
    (Along Conserved tr w ↔ Meets Drained tr)
    ∧ (Meets Drained tr → Meets ReleasedAll tr → Along NoStrayRef tr w) := by
  constructor
  · refine h.along_iff_meets (Q := fun w => w.Inv ∧ Conserved w)
      ⟨World.inv_init, conserved_init⟩ (fun _ hQ => hQ.2) ?_ ?_
    · exact fun hQ hC hs => ⟨World.inv_step hQ.1 hs, conserved_step hQ.1 hQ.2 hC hs⟩
    · exact fun hQ hC hs => not_conserved_step hQ.1 hQ.2 hC hs
  · intro hdrained hreleased
    have hall : Along (fun w => w.Inv ∧ Conserved w ∧ HeldByRegistered w) tr w := by
      refine h.along_of_meets (C := fun w l => Drained w l ∧ ReleasedAll w l) ?_ ?_
        (fun x hx => ⟨hdrained x hx, hreleased x hx⟩)
      · exact ⟨World.inv_init, conserved_init, fun _ hx => (List.not_mem_nil hx).elim⟩
      · exact fun hQ hC hs => ⟨World.inv_step hQ.1 hs, conserved_step hQ.1 hQ.2.1 hC.1 hs,
          heldByRegistered_step hQ.1 hQ.2.2 hC.2 hs⟩
    exact hall.imp fun w hw => noStrayRef_of_conserved hw.1 hw.2.1 hw.2.2

/-- An app subscribes and leaves before any message arrives. -/
theorem conserved_after_idle_app :
    ∃ tr w, Run RouterStep World.init tr w ∧ (∃ x ∈ tr, x.2 = .deregisterApp 0)
      ∧ Along Conserved tr w ∧ Along NoStrayRef tr w := by
  obtain ⟨tr, w, hrun, hno, hctx, -, hw⟩ :=
    subscribed_run (n := 2) (by decide) (Vector.replicate 16 0)
  have hall := hrun.next (RouterStep.deregisterApp hctx)
  have hdrained : Meets Drained (tr ++ [(w, .deregisterApp 0)]) := by
    refine meets_snoc.mpr ⟨fun x hx a _ ha => absurd ha (hno x hx a), ?_⟩
    rintro _ dapp ⟨⟩ hdapp
    obtain rfl := Option.some.inj (hctx.symm.trans hdapp)
    rfl
  have hreleased : Meets ReleasedAll (tr ++ [(w, .deregisterApp 0)]) := by
    refine meets_snoc.mpr ⟨fun x hx a ha => absurd ha (hno x hx a), ?_⟩
    rintro _ ⟨⟩ e he
    simp [hw, World.init] at he
  obtain ⟨hiff, hstray⟩ := conserved_iff_drained hall
  exact ⟨_, _, hall, ⟨_, List.mem_append_right _ (List.mem_singleton.mpr rfl), rfl⟩,
    hiff.mpr hdrained, hstray hdrained hreleased⟩

/-- An app subscribes, a message is queued for it, and it leaves. -/
theorem queued_buffer_lost :
    ¬ ∀ tr w, Run RouterStep World.init tr w → Conserved w := by
  intro h
  obtain ⟨tr, w, hrun, -, hctx, hlook, -⟩ :=
    subscribed_run (n := 2) (by decide) (Vector.replicate 16 0)
  have hfwd : RouterStep w (.forward (Vector.replicate 16 0) [5]) _ := RouterStep.forward
  have hctx' : (forwardMsgs true { w.router with io := w.router.io.arrive 5 }
      (Vector.replicate 16 0) [5]).ctx 0
      = some (DappCtx.post ⟨.fresh 2 (by decide), 0⟩ ⟨5, Vector.replicate 16 0⟩) := by
    refine (ctx_deliverAll _ 5 (bitmapIterator_nodup _) _ 0).trans ?_
    rw [if_pos (mem_bitmapIterator.mpr hlook)]
    exact congrArg (Option.map _) hctx
  have hrun' := hrun.next hfwd
  refine not_conserved_step (World.inv_run hrun') (h _ _ hrun') (l := .deregisterApp 0) ?_
    (RouterStep.deregisterApp hctx') (h _ _ (hrun'.next (RouterStep.deregisterApp hctx')))
  intro hdrained
  exact absurd (hdrained 0 _ rfl hctx') (by decide)

end JrtcBufferRef
