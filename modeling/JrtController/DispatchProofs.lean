import JrtController.WrapperAppProofs
import JrtController.ForwardMsgsProofs

/-! # From the router to the handler of an app

    The router forwards a message to an app if one of sixteen masked look-ups finds
    a request of the app; `JrtcApp::run` then looks for a stream whose request
    contains the message bit by bit.  The two tests are different, but every request
    the look-ups find contains the message, so that a stream is found.

    * `requests_run` — the requests that `Init` has registered are those of streams
      for reception;
    * `findStream_of_arrived` — for an entry that came through one of them, or
      through an input channel, a stream is found;
    * `dispatch_run` — a batch is worked off entry by entry;
    * `batch_dispatched` — one handler call for each such entry, one release for
      every entry, in the order of the batch. -/

namespace JrtcDispatch

open JrtcStreamId JrtcRouterLookup JrtcReqTable JrtcAppQueue JrtcRouter JrtcForward
open JrtcWrapperApp Runs

/-- The C++ program takes the answer to the call it waits for. -/
inductive CppStep (cfg : AppCfg) : Cpp → Answer → Cpp → Prop
  | answer {s : Cpp} {a : Answer} : Awaits s.phase a → CppStep cfg s a (s.step cfg a)

/-! ## The requests `Init` registers -/

/-- The first loop of `Init` has `rest` before it. -/
def Split (cfg : AppCfg) (s : Cpp) (rest : List StreamCfg) : Prop :=
  ∃ done, cfg.streams = done ++ rest ∧ done.length = s.streamItems.length

/-- A request that was registered is that of a stream for reception. -/
def Requests (cfg : AppCfg) (s : Cpp) : Prop :=
  ∀ r, .registerReq r 1 ∈ s.log →
    ∃ x ∈ cfg.streams.zip s.streamItems, x.1.isRx = true ∧ x.2.sid = r

/-- How far the first loop of `Init` is, by the call the program waits for. -/
def Todo (cfg : AppCfg) (s : Cpp) : Prop :=
  match s.phase with
  | .start => Split cfg s cfg.streams
  | .generate st rest => Split cfg s (st :: rest)
  | .create _ st _ rest => Split cfg s (st :: rest)
  | .register _ rest => ∃ st, st.isRx = true ∧ Split cfg s (st :: rest)
  | .initCheck rest => Split cfg s rest
  | _ => True

structure Inv (cfg : AppCfg) (s : Cpp) : Prop where
  todo     : Todo cfg s
  requests : Requests cfg s

section

variable {cfg : AppCfg} {s : Cpp}

theorem zip_of_split {streams done rest : List StreamCfg} {items : List StreamItem}
    (h : streams = done ++ rest) (hlen : done.length = items.length) :
    streams.zip items = done.zip items := by
  have hzip : (done ++ rest).zip (items ++ []) = done.zip items ++ rest.zip [] :=
    List.zip_append hlen
  rw [List.append_nil, List.zip_nil_right, List.append_nil] at hzip
  rw [h, hzip]

/-- Calls other than a successful registration change nothing. -/
theorem Requests.append (h : Requests cfg s) {evs : List Event}
    (hevs : ∀ r, .registerReq r 1 ∉ evs) : Requests cfg { s with log := s.log ++ evs } := by
  intro r hr
  rcases List.mem_append.mp hr with hr | hr
  · exact h r hr
  · exact absurd hr (hevs r)

theorem registerReq_not_mem_cleanUpCalls (items : List StreamItem) (r : StreamId)
    (res : Int) : .registerReq r res ∉ cleanUpCalls items := by
  intro h
  have hmain : .registerReq r res ∈ mainCalls (cleanUpCalls items) :=
    List.mem_filter.mpr ⟨h, rfl⟩
  rw [mainCalls_cleanUpCalls] at hmain
  exact absurd hmain List.not_mem_nil

theorem inv_initReturns (h : Requests cfg s) (res : Int) : Inv cfg (s.initReturns cfg res) := by
  unfold Cpp.initReturns
  dsimp only
  split
  · split
    · exact ⟨trivial, h⟩
    · exact ⟨trivial, h⟩
  · exact ⟨trivial, Requests.append (s := { s with initResult := some res }) h fun r =>
      registerReq_not_mem_cleanUpCalls _ r 1⟩

theorem inv_waitStream (h : Requests cfg s) (rest : List (StreamCfg × StreamItem)) :
    Inv cfg (s.waitStream cfg rest) := by
  induction rest with
  | nil => exact inv_initReturns h 0
  | cons x rest ih =>
      rw [Cpp.waitStream]
      split
      · exact ⟨trivial, h⟩
      · exact ih

theorem inv_initStream (h : Requests cfg s) {rest : List StreamCfg}
    (hsplit : Split cfg s rest) : Inv cfg (s.initStream cfg rest) := by
  cases rest with
  | nil => exact inv_waitStream h _
  | cons st rest => exact ⟨hsplit, h⟩

/-- A stream's item is complete, with `evs` the calls since the last one. -/
theorem inv_pushItem (h : Requests cfg s) {st : StreamCfg} {rest : List StreamCfg}
    (hsplit : Split cfg s (st :: rest)) (si : StreamItem) {evs : List Event}
    (hevs : ∀ r, .registerReq r 1 ∈ evs → st.isRx = true ∧ si.sid = r) :
    Inv cfg (Cpp.pushItem cfg { s with log := s.log ++ evs } si rest) := by
  obtain ⟨done, hstreams, hlen⟩ := hsplit
  have hzip : cfg.streams.zip (s.streamItems ++ [si])
      = cfg.streams.zip s.streamItems ++ [(st, si)] := by
    have hnew : (done ++ [st]).length = (s.streamItems ++ [si]).length := by
      rw [List.length_append, List.length_append, hlen, List.length_singleton,
        List.length_singleton]
    rw [zip_of_split (hstreams.trans (List.append_cons done st rest)) hnew,
      zip_of_split hstreams hlen, List.zip_append hlen]
    rfl
  let s' : Cpp :=
    { s with log := s.log ++ evs, streamItems := s.streamItems ++ [si] }
  have hreq : Requests cfg s' := by
    intro r hr
    show ∃ x ∈ cfg.streams.zip (s.streamItems ++ [si]), x.1.isRx = true ∧ x.2.sid = r
    rw [hzip]
    rcases List.mem_append.mp hr with hr | hr
    · obtain ⟨x, hx, hrx⟩ := h r hr
      exact ⟨x, List.mem_append_left _ hx, hrx⟩
    · exact ⟨(st, si), List.mem_append_right _ (List.mem_singleton_self _), hevs r hr⟩
  have hrest : Split cfg s' rest := by
    refine ⟨done ++ [st], hstreams.trans (List.append_cons done st rest), ?_⟩
    show (done ++ [st]).length = (s.streamItems ++ [si]).length
    rw [List.length_append, List.length_append, hlen, List.length_singleton,
      List.length_singleton]
  unfold Cpp.pushItem
  dsimp only
  split
  · exact ⟨hrest, hreq⟩
  · exact inv_initStream hreq hrest

theorem inv_registerStream (h : Requests cfg s) {st : StreamCfg} {rest : List StreamCfg}
    (hsplit : Split cfg s (st :: rest)) (si : StreamItem) :
    Inv cfg (s.registerStream cfg st si rest) := by
  unfold Cpp.registerStream
  split
  case _ hrx => exact ⟨⟨st, (Bool.and_eq_true _ _ ▸ hrx).1, hsplit⟩, h⟩
  case _ =>
    have hpush := inv_pushItem h hsplit si fun r hr => absurd hr List.not_mem_nil
    rw [List.append_nil] at hpush
    exact hpush

/-- The loop of `run` registers nothing. -/
theorem inv_dispatch (h : Requests cfg s) (batch : List DataEntry) :
    Inv cfg (s.dispatch cfg batch) := by
  cases batch with
  | nil => exact ⟨trivial, h⟩
  | cons e rest =>
      refine ⟨trivial, ?_⟩
      have hrelease : ∀ s : Cpp, Requests cfg s →
          Requests cfg { s.emit (.releaseBuf e.data) with phase := .stamp rest } :=
        fun s hs => hs.append fun r hr => by simp at hr
      unfold Cpp.dispatch
      dsimp only
      split
      · exact hrelease _ (h.append fun r hr => by simp at hr)
      · exact hrelease _ h

theorem inv_step (h : Inv cfg s) {a : Answer} (ha : Awaits s.phase a) :
    Inv cfg (s.step cfg a) := by
  obtain ⟨htodo, hreq⟩ := h
  unfold Todo at htodo
  rw [Cpp.step]
  generalize s.phase = ph at ha htodo
  cases ha with
  | start t =>
      exact inv_initStream (s := { s with startTime := t, lastReceivedTime := t }) hreq htodo
  | generate st rest res sid =>
      rw [Cpp.resume]
      split
      · exact inv_initReturns hreq (-1)
      · split
        · exact ⟨htodo, hreq⟩
        · exact inv_registerStream hreq htodo _
  | create ch st si rest chan =>
      have hcreate : Requests cfg (s.emit (.channelCreate ch si.sid chan)) :=
        hreq.append fun r hr => by simp at hr
      rw [Cpp.resume]
      split
      · exact inv_initReturns hcreate (-1)
      · exact inv_registerStream hcreate htodo _
  | register si rest res =>
      obtain ⟨st, hrx, hsplit⟩ := htodo
      rw [Cpp.resume]
      split
      case _ hres =>
        refine inv_initReturns (hreq.append fun r hr => ?_) (-1)
        have heq := List.mem_singleton.mp hr
        exact hres (Event.registerReq.inj heq).2.symm
      case _ =>
        refine inv_pushItem hreq hsplit _ fun r hr => ?_
        exact ⟨hrx, (Event.registerReq.inj (List.mem_singleton.mp hr)).1.symm⟩
  | initCheck rest t =>
      rw [Cpp.resume]
      split
      · exact inv_initReturns hreq (-1)
      · exact inv_initStream hreq htodo
  | channelExists si rest res =>
      rw [Cpp.resume]
      split
      · exact inv_waitStream hreq rest
      · split
        · exact ⟨trivial, hreq⟩
        · exact ⟨trivial, hreq⟩
  | waitCheck si rest t =>
      rw [Cpp.resume]
      split
      · exact inv_initReturns hreq (-1)
      · exact ⟨trivial, hreq⟩
  | loop flag =>
      rw [Cpp.resume]
      split
      · exact ⟨trivial, hreq.append fun r => registerReq_not_mem_cleanUpCalls _ r 1⟩
      · exact ⟨trivial, hreq⟩
  | now t =>
      rw [Cpp.resume]
      dsimp only
      split
      · exact ⟨trivial, hreq.append fun r hr => by simp at hr⟩
      · exact ⟨trivial, hreq⟩
  | receive batch => exact inv_dispatch hreq batch
  | stamp rest t => exact inv_dispatch (s := { s with lastReceivedTime := t }) hreq rest

/-- On every run, what was registered is the request of a stream for reception. -/
theorem requests_run {t : ℚ} {tr : List (Cpp × Answer)}
    (h : Run (CppStep cfg) (.construct t) tr s) : Requests cfg s := by
  have hstart : Inv cfg (.construct t) :=
    ⟨⟨[], rfl, rfl⟩, fun r hr => absurd hr List.not_mem_nil⟩
  have hinv : Inv cfg s := h.invariant hstart fun hi hs => by
    obtain ⟨ha⟩ := hs
    exact inv_step hi ha
  exact hinv.requests

end

/-! ## Where the entries come from -/

/-- An entry that the router forwarded to app `a` through a request in `reqs`, or
    that came from an input channel of a stream for reception. -/
inductive Arrived (cfg : AppCfg) (items : List StreamItem) (a : AppId) (reqs : ReqTable)
    (e : DataEntry) : Prop
  | forwarded : a ∈ lookupResult reqs e.streamId → Arrived cfg items a reqs e
  | input {st : StreamCfg} {si : StreamItem} {ch : AppChannelCfg} :
      (st, si) ∈ cfg.streams.zip items → st.isRx = true → st.appChannel = some ch →
      ch.isOutput = false → e.streamId = si.sid → Arrived cfg items a reqs e

/-- What forwarding adds to the ring of an app came through one of its requests. -/
theorem mem_lookupResult_of_forwardMsgs {st : RouterCtx} {sid : StreamId}
    {bufs : List BufPtr} {a : AppId} {e : DataEntry}
    (h : e ∈ ringOf (forwardMsgs true st sid bufs) a) :
    e ∈ ringOf st a ∨ a ∈ lookupResult st.reqs e.streamId := by
  by_cases ha : a ∈ lookupResult st.reqs sid
  · cases bufs with
    | nil => exact Or.inl h
    | cons buf bufs =>
        -- only the first buffer is posted
        rw [forwardMsgs_eq_loopAt, ringOf_congr (congrFun (ctx_loopAt st sid
          (Nat.lt_succ_self bufs.length)) a)] at h
        have hpos : 0 < (buf :: bufs).length := Nat.succ_pos _
        have hpost := ctx_loopAt_succ st sid hpos a
        rw [if_pos ⟨rfl, ha⟩] at hpost
        by_cases htake : CanTake (loopAt st sid (buf :: bufs) 0) a
        · rw [(ringOf_post hpost).1 htake, List.mem_append, List.mem_singleton] at h
          rcases h with h | rfl
          · exact Or.inl h
          · exact Or.inr ha
        · rw [(ringOf_post hpost).2 htake] at h
          exact Or.inl h
  · rw [ringOf_forwardMsgs st sid bufs ha] at h
    exact Or.inl h

/-- What is received from input channels has the id of its channel. -/
theorem streamId_of_receiveInputs {n : Nat} {inputs : List (StreamId × List BufPtr)}
    {e : DataEntry} (h : e ∈ receiveInputs n inputs) : ∃ x ∈ inputs, e.streamId = x.1 := by
  induction inputs generalizing n with
  | nil => exact absurd h List.not_mem_nil
  | cons x inputs ih =>
      rw [receiveInputs] at h
      split at h
      · exact absurd h List.not_mem_nil
      · rcases List.mem_append.mp h with h | h
        · obtain ⟨buf, -, rfl⟩ := List.mem_map.mp h
          exact ⟨x, List.mem_cons_self, rfl⟩
        · obtain ⟨y, hy, heq⟩ := ih h
          exact ⟨y, List.mem_cons_of_mem _ hy, heq⟩

/-- What `jrtc_router_receive` returns has arrived, if the ring holds what was
    forwarded through `reqs` and the input channels are those of streams for
    reception. -/
theorem arrived_of_receive {cfg : AppCfg} {items : List StreamItem} {a : AppId}
    {reqs : ReqTable} {dapp : DappCtx} {inputs : List (StreamId × List BufPtr)}
    (hring : ∀ e ∈ dapp.queue.queue.entries, a ∈ lookupResult reqs e.streamId)
    (hin : ∀ x ∈ inputs, ∃ st si ch, (st, si) ∈ cfg.streams.zip items ∧ st.isRx = true
      ∧ st.appChannel = some ch ∧ ch.isOutput = false ∧ x.1 = si.sid)
    {n : Nat} {e : DataEntry}
    (he : e ∈ (receive dapp n inputs).1 ++ (receive dapp n inputs).2.1) :
    Arrived cfg items a reqs e := by
  rcases List.mem_append.mp he with he | he
  · refine .forwarded (hring e ?_)
    rw [← AppQueue.receiveRing_entries dapp.queue.queue n]
    exact List.mem_append_left _ he
  · obtain ⟨x, hx, hsid⟩ := streamId_of_receiveInputs he
    obtain ⟨st, si, ch, hzip, hrx, hch, hout, hid⟩ := hin x hx
    exact .input hzip hrx hch hout (hsid.trans hid)

/-! ## Working off a batch -/

/-- The stream an entry is handled as: the first for reception whose request matches. -/
structure LeastMatch (cfg : AppCfg) (items : List StreamItem) (e : DataEntry) (i : Nat) :
    Prop where
  matching : ∃ x, (cfg.streams.zip items)[i]? = some x ∧ x.1.isRx = true
    ∧ matchesReq e.streamId x.2.sid = true
  least    : ∀ j, j < i → ∀ x, (cfg.streams.zip items)[j]? = some x →
    ¬ (x.1.isRx = true ∧ matchesReq e.streamId x.2.sid = true)

theorem leastMatch_of_findStream {cfg : AppCfg} {items : List StreamItem} {e : DataEntry}
    {i : Nat} (h : findStream cfg.streams items e.streamId = some i) :
    LeastMatch cfg items e i := by
  obtain ⟨hlt, hmatch, hleast⟩ := List.findIdx?_eq_some_iff_getElem.mp h
  refine ⟨⟨_, List.getElem?_eq_getElem hlt, (Bool.and_eq_true _ _).mp hmatch⟩, ?_⟩
  intro j hj x hx hboth
  obtain ⟨hjlt, rfl⟩ := List.getElem?_eq_some_iff.mp hx
  exact hleast j hj ((Bool.and_eq_true _ _).mpr hboth)

theorem matchesReq_self (sid : StreamId) : matchesReq sid sid = true :=
  (matchesReq_iff sid sid).mpr fun _ => BitVec.and_self

/-- **A STREAM IS FOUND** for what arrived through a request of `Init` or an input
    channel. -/
theorem findStream_of_arrived {cfg : AppCfg} {s : Cpp} {a : AppId} {reqs : ReqTable}
    (hreq : Requests cfg s) (hsub : ∀ r, a ∈ subscribers reqs r → .registerReq r 1 ∈ s.log)
    {e : DataEntry} (he : Arrived cfg s.streamItems a reqs e) :
    ∃ i, findStream cfg.streams s.streamItems e.streamId = some i := by
  obtain ⟨x, hx, hrx, hmatch⟩ : ∃ x ∈ cfg.streams.zip s.streamItems, x.1.isRx = true
      ∧ matchesReq e.streamId x.2.sid = true := by
    cases he with
    | forwarded ha =>
        obtain ⟨r, hr, ha⟩ := (mem_lookupResult reqs e.streamId a).mp ha
        obtain ⟨x, hx, hrx, rfl⟩ := hreq r (hsub r ha)
        exact ⟨x, hx, hrx, (matchesReq_iff _ _).mpr hr.contained⟩
    | @input st si ch hx hrx _ _ hsid =>
        refine ⟨(st, si), hx, hrx, ?_⟩
        rw [hsid]
        exact matchesReq_self si.sid
  refine Option.ne_none_iff_exists'.mp fun hnone => ?_
  have hno := List.findIdx?_eq_none_iff.mp hnone x hx
  rw [hrx, hmatch] at hno
  cases hno

/-- The calls for one entry: its handler, if a stream is found, and its release. -/
def entryCalls (cfg : AppCfg) (items : List StreamItem) (e : DataEntry) : List Event :=
  (match findStream cfg.streams items e.streamId with
    | some i => [.appHandler false i (some e)]
    | none => []) ++ [.releaseBuf e.data]

theorem dispatch_cons (cfg : AppCfg) (s : Cpp) (e : DataEntry) (rest : List DataEntry) :
    s.dispatch cfg (e :: rest) = { s with
      log := s.log ++ entryCalls cfg s.streamItems e
      phase := .stamp rest } := by
  rw [Cpp.dispatch, entryCalls]
  cases findStream cfg.streams s.streamItems e.streamId with
  | none => rfl
  | some i => simp only [Cpp.emit, List.append_assoc]

/-- **ENTRY BY ENTRY.**  With one clock reading after each, the loop works the batch
    off and is back at the test of `app_exit`. -/
theorem dispatch_run (cfg : AppCfg) (s : Cpp) (batch : List DataEntry) (ts : List ℚ)
    (hts : ts.length = batch.length) :
    ((ts.map Answer.clock).foldl (Cpp.step cfg) (s.dispatch cfg batch)).phase = .loop
      ∧ ((ts.map Answer.clock).foldl (Cpp.step cfg) (s.dispatch cfg batch)).log
        = s.log ++ batch.flatMap (entryCalls cfg s.streamItems) := by
  induction batch generalizing s ts with
  | nil =>
      obtain rfl := List.length_eq_zero_iff.mp hts
      exact ⟨rfl, (List.append_nil _).symm⟩
  | cons e rest ih =>
      cases ts with
      | nil => cases hts
      | cons t ts =>
          rw [dispatch_cons, List.map_cons, List.foldl_cons, List.flatMap_cons,
            ← List.append_assoc]
          exact ih { s with
            log := s.log ++ entryCalls cfg s.streamItems e
            lastReceivedTime := t
            phase := .stamp rest } ts (Nat.succ.inj hts)

/-- What working off an entry is to be: at most one handler call, then one release;
    and exactly one, for the first stream that matches, if the entry arrived through a
    stream for reception. -/
structure Handled (cfg : AppCfg) (items : List StreamItem) (a : AppId) (reqs : ReqTable)
    (e : DataEntry) (calls : List Event) : Prop where
  released : calls = [.releaseBuf e.data]
    ∨ ∃ i : Nat, calls = [.appHandler false i (some e), .releaseBuf e.data]
  arrived  : Arrived cfg items a reqs e → ∃ i : Nat, LeastMatch cfg items e i
    ∧ calls = [.appHandler false i (some e), .releaseBuf e.data]

theorem handled_entryCalls {cfg : AppCfg} {s : Cpp} {a : AppId} {reqs : ReqTable}
    (hreq : Requests cfg s) (hsub : ∀ r, a ∈ subscribers reqs r → .registerReq r 1 ∈ s.log)
    (e : DataEntry) :
    Handled cfg s.streamItems a reqs e (entryCalls cfg s.streamItems e) := by
  have hcalls : ∀ {i}, findStream cfg.streams s.streamItems e.streamId = some i →
      entryCalls cfg s.streamItems e
        = [.appHandler false i (some e), .releaseBuf e.data] := by
    intro i hfind
    rw [entryCalls, hfind]
    rfl
  constructor
  · cases hfind : findStream cfg.streams s.streamItems e.streamId with
    | none =>
        left
        rw [entryCalls, hfind]
        rfl
    | some i => exact Or.inr ⟨i, hcalls hfind⟩
  · intro he
    obtain ⟨i, hfind⟩ := findStream_of_arrived hreq hsub he
    exact ⟨i, leastMatch_of_findStream hfind, hcalls hfind⟩

/-- **EVERY BATCH IS WORKED OFF**: an app that has come to `jrtc_router_receive`, and
    whose requests in the router are among those `Init` registered, handles each entry
    of the batch it gets in turn. -/
theorem batch_dispatched {cfg : AppCfg} {t : ℚ} {tr : List (Cpp × Answer)} {s : Cpp}
    (h : Run (CppStep cfg) (.construct t) tr s) (hph : s.phase = .receive) {a : AppId}
    {reqs : ReqTable} (hsub : ∀ r, a ∈ subscribers reqs r → .registerReq r 1 ∈ s.log)
    (batch : List DataEntry) (ts : List ℚ) (hts : ts.length = batch.length) :
    ∃ s' calls, (.received batch :: ts.map .clock).foldl (Cpp.step cfg) s = s'
      ∧ s'.phase = .loop ∧ s'.log = s.log ++ calls.flatten
      ∧ List.Forall₂ (Handled cfg s.streamItems a reqs) batch calls := by
  have hreceive : Cpp.step cfg s (.received batch) = s.dispatch cfg batch := by
    rw [Cpp.step, hph]
    rfl
  obtain ⟨hloop, hlog⟩ := dispatch_run cfg s batch ts hts
  refine ⟨_, batch.map (entryCalls cfg s.streamItems), rfl, ?_, ?_, ?_⟩
  · rw [List.foldl_cons, hreceive, hloop]
  · rw [List.foldl_cons, hreceive, hlog, List.flatMap_def]
  · rw [List.forall₂_map_right_iff, List.forall₂_same]
    exact fun e _ => handled_entryCalls (requests_run h) hsub e

/-- An app that receives on one stream, without timeouts. -/
def listenerCfg : AppCfg := ⟨1, [⟨⟨1, 1, none, none⟩, true, none⟩], 0, 0⟩

/-- The listener gets one message through its request. -/
theorem batch_dispatched_one_message : ∃ s s' : Cpp, s'.phase = .loop
    ∧ s'.log = s.log ++ [.appHandler false 0 (some ⟨7, .replicate 16 0⟩), .releaseBuf 7] := by
  have h₁ := Run.start.next (@CppStep.answer listenerCfg (.construct 0) _ (.start 0))
  have h₂ := h₁.next (.answer (.generate _ _ 1 (.replicate 16 0)))
  have h₃ := h₂.next (.answer (.register _ _ 1))
  have h₄ := h₃.next (.answer (.loop false))
  have h₅ := h₄.next (.answer (.now 0))
  -- app 0 has the request of the stream and no other
  let reqs : ReqTable := Function.update (fun _ => none) (.replicate 16 0) (some {0})
  have hreqs : ∀ r, subscribers reqs r = if r = .replicate 16 0 then {0} else ∅ :=
    fun r => subscribers_update _ _ r _
  obtain ⟨s', calls, -, hloop, hlog, hall⟩ := @batch_dispatched _ _ _ _ h₅ rfl 0 reqs (by
    intro r hr
    rw [hreqs] at hr
    split at hr
    case _ heq =>
      subst heq
      exact List.mem_singleton_self _
    case _ => exact absurd hr (Finset.notMem_empty _)) [⟨7, .replicate 16 0⟩] [0] rfl
  have harrived : Arrived listenerCfg [⟨.replicate 16 0, true, none⟩] 0 reqs
      ⟨7, .replicate 16 0⟩ := by
    refine .forwarded (mem_lookupResult_self ?_)
    rw [hreqs, if_pos rfl]
    exact Finset.mem_singleton_self _
  rw [List.forall₂_cons_left_iff] at hall
  obtain ⟨c, cs, hc, hcs, rfl⟩ := hall
  obtain rfl := List.forall₂_nil_left_iff.mp hcs
  obtain ⟨i, hmatch, rfl⟩ := hc.arrived harrived
  obtain ⟨⟨x, hx, -⟩, -⟩ := hmatch
  obtain rfl : i = 0 := by
    have hlt := (List.getElem?_eq_some_iff.mp hx).1
    exact Nat.lt_one_iff.mp hlt
  exact ⟨_, s', hloop, hlog⟩

end JrtcDispatch
