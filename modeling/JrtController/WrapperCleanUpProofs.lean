import JrtController.WrapperAppProofs

/-! # What the C++ `JrtcApp` cleans up

    `Init` acquires up to two things for a stream, a channel and a registered request,
    and puts them on the list that `CleanUp` walks only afterwards.

    * `Held` — what was acquired is on a list of items, and nothing was given back;
    * `cleaned_of_held` — the calls of the clean-up balance what is on the list;
    * `Accounted` — in each phase, where the list is: the items of the app, and while a
      stream is registered also the item that is being built;
    * `accounted_step`, `not_cleaned_step` — one answer keeps the accounts unless the
      registration of a stream that has a channel fails;
    * `cleaned_iff_registers` — so a run cleans up iff it has no such failure. -/

namespace JrtcWrapperApp

open JrtcStreamId JrtcAppQueue Runs

/-! ## The C++ program on its own -/

/-- The C++ program is given the answer to the call it waits for. -/
inductive CppStep (cfg : AppCfg) : Cpp → Answer → Cpp → Prop
  | answer {s : Cpp} {a : Answer} : Awaits s.phase a → CppStep cfg s a (s.step cfg a)

/-- The call has returned the channel. -/
def Event.creates (c : ChanCtx) : Event → Bool
  | .channelCreate _ _ (some c') => decide (c' = c)
  | _ => false

/-- How often a channel was returned by `jrtc_router_channel_create`. -/
def createdTimes (c : ChanCtx) (log : List Event) : Nat := log.countP (Event.creates c)

/-- How often it was passed to `jrtc_router_channel_destroy`. -/
def destroyedTimes (c : ChanCtx) (log : List Event) : Nat := log.count (.channelDestroy c)

/-- A channel was destroyed as often as it was created, once each, and every request
    that was registered was deregistered. -/
structure Cleaned (log : List Event) : Prop where
  channels : ∀ c, destroyedTimes c log = createdTimes c log
  requests : ∀ sid, .registerReq sid 1 ∈ log → .deregisterReq sid ∈ log

/-- When the registration of a stream fails, no channel was created for it. -/
def Registers (s : Cpp) (a : Answer) : Prop :=
  ∀ si rest res, s.phase = .register si rest → a = .registered res → res = 1 ∨ si.chanCtx = none

/-! ## The accounts -/

/-- How many items have the channel. -/
def itemsWith (c : ChanCtx) (items : List StreamItem) : Nat :=
  items.countP fun si => decide (si.chanCtx = some c)

/-- What the calls so far have acquired is on the items, and nothing was given back. -/
structure Held (items : List StreamItem) (log : List Event) : Prop where
  channels : ∀ c, createdTimes c log = itemsWith c items
  live     : ∀ c, .channelDestroy c ∉ log
  requests : ∀ sid, .registerReq sid 1 ∈ log → ∃ si ∈ items, si.registered = true ∧ si.sid = sid

theorem createdTimes_append (c : ChanCtx) (log log' : List Event) :
    createdTimes c (log ++ log') = createdTimes c log + createdTimes c log' :=
  List.countP_append

theorem destroyedTimes_append (c : ChanCtx) (log log' : List Event) :
    destroyedTimes c (log ++ log') = destroyedTimes c log + destroyedTimes c log' :=
  List.count_append

theorem itemsWith_append (c : ChanCtx) (items items' : List StreamItem) :
    itemsWith c (items ++ items') = itemsWith c items + itemsWith c items' :=
  List.countP_append

/-- The calls for one item. -/
theorem cleanUpCalls_cons (si : StreamItem) (items : List StreamItem) :
    cleanUpCalls (si :: items) = (if si.registered then [.deregisterReq si.sid] else [])
      ++ (si.chanCtx.toList.map Event.channelDestroy) ++ cleanUpCalls items := by
  rw [cleanUpCalls, List.flatMap_cons]
  cases si.chanCtx <;> rfl

theorem createdTimes_cleanUpCalls (c : ChanCtx) (items : List StreamItem) :
    createdTimes c (cleanUpCalls items) = 0 := by
  induction items with
  | nil => rfl
  | cons si items ih =>
      rw [cleanUpCalls_cons, createdTimes_append, createdTimes_append, ih]
      have hdereg : createdTimes c (if si.registered then [.deregisterReq si.sid] else []) = 0 := by
        cases si.registered <;> rfl
      rw [hdereg]
      cases si.chanCtx <;> rfl

theorem destroyedTimes_cleanUpCalls (c : ChanCtx) (items : List StreamItem) :
    destroyedTimes c (cleanUpCalls items) = itemsWith c items := by
  induction items with
  | nil => rfl
  | cons si items ih =>
      have hdereg : destroyedTimes c
          (if si.registered then [.deregisterReq si.sid] else []) = 0 := by
        cases si.registered <;> rfl
      have hitem : itemsWith c (si :: items) = itemsWith c [si] + itemsWith c items :=
        itemsWith_append c [si] items
      rw [cleanUpCalls_cons, destroyedTimes_append, destroyedTimes_append, ih, hdereg, hitem,
        Nat.zero_add]
      congr 1
      cases hchan : si.chanCtx with
      | none => simp [destroyedTimes, itemsWith, hchan]
      | some c' => simp [destroyedTimes, itemsWith, hchan, List.count_singleton]

theorem deregisterReq_mem_cleanUpCalls {items : List StreamItem} {si : StreamItem}
    (hsi : si ∈ items) (hreg : si.registered = true) :
    .deregisterReq si.sid ∈ cleanUpCalls items := by
  refine List.mem_flatMap.mpr ⟨si, hsi, List.mem_append_left _ ?_⟩
  rw [if_pos hreg]
  exact List.mem_cons_self

theorem registerReq_not_mem_cleanUpCalls (sid : StreamId) (res : Int)
    (items : List StreamItem) : .registerReq sid res ∉ cleanUpCalls items := by
  intro h
  obtain ⟨si, -, hsi⟩ := List.mem_flatMap.mp h
  cases hreg : si.registered <;> cases hchan : si.chanCtx <;> simp [hreg, hchan] at hsi

/-- **THE CLEAN-UP** gives back what is on the items. -/
theorem cleaned_of_held {items : List StreamItem} {log : List Event} (h : Held items log) :
    Cleaned (log ++ cleanUpCalls items) where
  channels c := by
    have hlive : destroyedTimes c log = 0 := List.count_eq_zero.mpr (h.live c)
    rw [destroyedTimes_append, createdTimes_append, hlive, destroyedTimes_cleanUpCalls,
      createdTimes_cleanUpCalls, h.channels c, Nat.zero_add, Nat.add_zero]
  requests sid hreq := by
    rcases List.mem_append.mp hreq with hreq | hreq
    · obtain ⟨si, hsi, hreg, rfl⟩ := h.requests sid hreq
      exact List.mem_append_right _ (deregisterReq_mem_cleanUpCalls hsi hreg)
    · exact absurd hreq (registerReq_not_mem_cleanUpCalls sid 1 items)

/-- The calls that acquire nothing and give nothing back. -/
def Event.Neutral : Event → Prop
  | .appHandler .. => True
  | .releaseBuf _ => True
  | .channelCreate _ _ res => res = none
  | .registerReq _ res => res ≠ 1
  | .deregisterReq _ => False
  | .channelDestroy _ => False

theorem Held.live_snoc {items : List StreamItem} {log : List Event} (h : Held items log)
    {e : Event} (he : ∀ c, .channelDestroy c ≠ e) (c : ChanCtx) :
    .channelDestroy c ∉ log ++ [e] := by
  rw [List.mem_append, List.mem_singleton, not_or]
  exact ⟨h.live c, he c⟩

/-- An item that is not registered accounts for no request. -/
theorem Held.requests_before {items : List StreamItem} {log : List Event} {si : StreamItem}
    (h : Held (items ++ [si]) log) (hnew : si.registered = false) {sid : StreamId}
    (hreq : .registerReq sid 1 ∈ log) :
    ∃ si' ∈ items, si'.registered = true ∧ si'.sid = sid := by
  obtain ⟨si', hsi', hreg, hsid⟩ := h.requests sid hreq
  rcases List.mem_append.mp hsi' with hsi' | hsi'
  · exact ⟨si', hsi', hreg, hsid⟩
  · rw [List.mem_singleton.mp hsi', hnew] at hreg
    cases hreg

theorem Held.emit {items : List StreamItem} {log : List Event} (h : Held items log)
    {e : Event} (he : e.Neutral) : Held items (log ++ [e]) where
  channels c := by
    have hcreates : e.creates c = false := by
      cases e with
      | channelCreate cfg sid res => rw [show res = none from he]; rfl
      | _ => rfl
    rw [createdTimes_append, h.channels c, createdTimes, List.countP_singleton, hcreates]
    rfl
  live := h.live_snoc fun c heq => by rw [← heq] at he; exact he
  requests sid hreq := by
    rcases List.mem_append.mp hreq with hreq | hreq
    · exact h.requests sid hreq
    · rw [← List.mem_singleton.mp hreq] at he
      exact absurd rfl he

/-- A channel that was created is on the item that is being built. -/
theorem Held.create {items : List StreamItem} {log : List Event} (h : Held items log)
    (cfg : AppChannelCfg) (si : StreamItem) (c : ChanCtx) :
    Held (items ++ [{ si with chanCtx := some c }])
      (log ++ [.channelCreate cfg si.sid (some c)]) where
  channels c' := by
    rw [createdTimes_append, itemsWith_append, h.channels c']
    simp [createdTimes, itemsWith, List.countP_singleton, Event.creates]
  live := h.live_snoc fun _ => Event.noConfusion
  requests sid hreq := by
    rcases List.mem_append.mp hreq with hreq | hreq
    · obtain ⟨si', hsi', hreg⟩ := h.requests sid hreq
      exact ⟨si', List.mem_append_left _ hsi', hreg⟩
    · cases List.mem_singleton.mp hreq

/-- So is a request that was registered. -/
theorem Held.register {items : List StreamItem} {log : List Event} {si : StreamItem}
    (h : Held (items ++ [si]) log) (hnew : si.registered = false) :
    Held (items ++ [{ si with registered := true }]) (log ++ [.registerReq si.sid 1]) where
  channels c := by
    rw [createdTimes_append, h.channels c, itemsWith_append, itemsWith_append]
    rfl
  live := h.live_snoc fun _ => Event.noConfusion
  requests sid hreq := by
    rcases List.mem_append.mp hreq with hreq | hreq
    · obtain ⟨si', hsi', hreg⟩ := h.requests_before hnew hreq
      exact ⟨si', List.mem_append_left _ hsi', hreg⟩
    · cases List.mem_singleton.mp hreq
      exact ⟨_, List.mem_append_right _ List.mem_cons_self, rfl, rfl⟩

/-- An item that has acquired nothing need not be on the list. -/
theorem Held.push {items : List StreamItem} {log : List Event} (h : Held items log)
    {si : StreamItem} (hchan : si.chanCtx = none) : Held (items ++ [si]) log where
  channels c := by
    rw [itemsWith_append, h.channels c]
    simp [itemsWith, hchan]
  live := h.live
  requests sid hreq := by
    obtain ⟨si', hsi', hreg⟩ := h.requests sid hreq
    exact ⟨si', List.mem_append_left _ hsi', hreg⟩

theorem Held.drop {items : List StreamItem} {log : List Event} {si : StreamItem}
    (h : Held (items ++ [si]) log) (hchan : si.chanCtx = none)
    (hnew : si.registered = false) : Held items log where
  channels c := by
    rw [h.channels c, itemsWith_append]
    simp [itemsWith, hchan]
  live := h.live
  requests _ hreq := h.requests_before hnew hreq

/-! ## From answer to answer -/

/-- The accounts of the app in each phase. -/
def Accounted (s : Cpp) : Prop :=
  match s.phase with
  | .returned => Cleaned s.log
  | .create _ _ si _ => (si.chanCtx = none ∧ si.registered = false) ∧ Held s.streamItems s.log
  | .register si _ => si.registered = false ∧ Held (s.streamItems ++ [si]) s.log
  | _ => Held s.streamItems s.log

section Steps

variable {cfg : AppCfg} {s : Cpp}

theorem accounted_initReturns (h : Held s.streamItems s.log) (res : Int) :
    Accounted (s.initReturns cfg res) := by
  rw [Cpp.initReturns]
  by_cases hres : res = 0
  · rw [if_pos hres]
    by_cases hq : cfg.qSize < 0
    · rw [if_pos hq]
      exact h
    · rw [if_neg hq]
      exact h
  · rw [if_neg hres]
    exact cleaned_of_held h

theorem accounted_waitStream (h : Held s.streamItems s.log)
    (rest : List (StreamCfg × StreamItem)) : Accounted (s.waitStream cfg rest) := by
  induction rest with
  | nil => exact accounted_initReturns h 0
  | cons x rest ih =>
      rw [Cpp.waitStream]
      by_cases hwait : (!x.1.isRx && x.2.chanCtx.isNone) = true
      · rw [if_pos hwait]
        exact h
      · rw [if_neg hwait]
        exact ih

theorem accounted_initStream (h : Held s.streamItems s.log) (rest : List StreamCfg) :
    Accounted (s.initStream cfg rest) := by
  cases rest with
  | nil => exact accounted_waitStream h _
  | cons st rest => exact h

theorem accounted_pushItem {si : StreamItem} (h : Held (s.streamItems ++ [si]) s.log)
    (rest : List StreamCfg) : Accounted (s.pushItem cfg si rest) := by
  rw [Cpp.pushItem]
  by_cases htimeout : cfg.initializationTimeoutSecs > 0
  · rw [if_pos htimeout]
    exact h
  · rw [if_neg htimeout]
    exact accounted_initStream h rest

theorem accounted_registerStream {si : StreamItem} (hnew : si.registered = false)
    (h : Held (s.streamItems ++ [si]) s.log) (st : StreamCfg) (rest : List StreamCfg) :
    Accounted (s.registerStream cfg st si rest) := by
  rw [Cpp.registerStream]
  by_cases hrx : (st.isRx && !si.registered) = true
  · rw [if_pos hrx]
    exact ⟨hnew, h⟩
  · rw [if_neg hrx]
    exact accounted_pushItem h rest

theorem accounted_dispatch (h : Held s.streamItems s.log) (batch : List DataEntry) :
    Accounted (s.dispatch cfg batch) := by
  cases batch with
  | nil => exact h
  | cons e rest =>
      rw [Cpp.dispatch]
      cases findStream cfg.streams s.streamItems e.streamId with
      | none => exact h.emit (e := .releaseBuf e.data) trivial
      | some i =>
          exact (h.emit (e := .appHandler false i (some e)) trivial).emit
            (e := .releaseBuf e.data) trivial

/-- **ONE ANSWER** keeps the accounts, unless a stream that has a channel is not
    registered. -/
theorem accounted_step (h : Accounted s) {a : Answer} {s' : Cpp} (hreg : Registers s a)
    (hst : CppStep cfg s a s') : Accounted s' := by
  obtain ⟨ha⟩ := hst
  rw [Accounted] at h
  rw [Cpp.step]
  generalize hph : s.phase = ph at h ha ⊢
  cases ha with
  | start t =>
      exact accounted_initStream (s := { s with startTime := t, lastReceivedTime := t }) h _
  | generate st rest res sid =>
      rw [Cpp.resume]
      by_cases hres : res ≠ 1
      · rw [if_pos hres]
        exact accounted_initReturns h _
      · rw [if_neg hres]
        cases st.appChannel with
        | none => exact accounted_registerStream rfl (h.push rfl) st rest
        | some ch => exact ⟨⟨rfl, rfl⟩, h⟩
  | create ch st si rest chan =>
      obtain ⟨⟨hchan, hnew⟩, h⟩ := h
      rw [Cpp.resume]
      cases chan with
      | none =>
          rw [if_pos rfl]
          exact accounted_initReturns (s := s.emit (.channelCreate ch si.sid none))
            (h.emit (e := .channelCreate ch si.sid none) rfl) _
      | some c =>
          rw [if_neg (Option.some_ne_none c)]
          exact @accounted_registerStream cfg (s.emit (.channelCreate ch si.sid (some c)))
            { si with chanCtx := some c } hnew (h.create ch si c) st rest
  | register si rest res =>
      obtain ⟨hnew, h⟩ := h
      rw [Cpp.resume]
      by_cases hres : res = 1
      · subst hres
        rw [if_neg (not_not.mpr rfl)]
        exact accounted_pushItem (s := s.emit (.registerReq si.sid 1)) (h.register hnew) rest
      · rw [if_pos hres]
        have hchan := (hreg si rest res hph rfl).resolve_left hres
        exact accounted_initReturns (s := s.emit (.registerReq si.sid res))
          ((h.drop hchan hnew).emit (e := .registerReq si.sid res) hres) _
  | initCheck rest t =>
      rw [Cpp.resume]
      split
      · exact accounted_initReturns h _
      · exact accounted_initStream h rest
  | channelExists si rest res =>
      rw [Cpp.resume]
      split
      · exact accounted_waitStream h rest
      · split
        · exact h
        · exact h
  | waitCheck si rest t =>
      rw [Cpp.resume]
      split
      · exact accounted_initReturns h _
      · exact h
  | loop flag =>
      rw [Cpp.resume]
      cases flag with
      | false => exact h
      | true => exact cleaned_of_held h
  | now t =>
      rw [Cpp.resume]
      split
      · exact h.emit (e := .appHandler true (-1) none) trivial
      · exact h
  | receive batch => exact accounted_dispatch h batch
  | stamp rest t => exact accounted_dispatch (s := { s with lastReceivedTime := t }) h rest

/-- **A FAILED REGISTRATION** of a stream that has a channel leaves the channel behind:
    the item is not on the list yet. -/
theorem not_cleaned_step (h : Accounted s) {a : Answer} {s' : Cpp} (hreg : ¬ Registers s a)
    (hst : CppStep cfg s a s') : ¬ (s'.phase = .returned → Cleaned s'.log) := by
  obtain ⟨ha⟩ := hst
  obtain ⟨si, rest, res, hph, rfl, hres, hchan⟩ : ∃ si rest res, s.phase = .register si rest
      ∧ a = .registered res ∧ res ≠ 1 ∧ si.chanCtx ≠ none := by
    by_contra hno
    refine hreg fun si rest res hph ha => ?_
    by_contra hor
    exact hno ⟨si, rest, res, hph, ha, not_or.mp hor⟩
  rw [Accounted, hph] at h
  obtain ⟨hnew, h⟩ := h
  obtain ⟨c, hc⟩ := Option.ne_none_iff_exists'.mp hchan
  have hs' : s.step cfg (.registered res)
      = (s.emit (.registerReq si.sid res)).initReturns cfg (-1) := by
    rw [Cpp.step, hph, Cpp.resume, if_pos hres]
  rw [hs']
  intro hclean
  have hchannels := (hclean rfl).channels c
  have hlog : ((s.emit (.registerReq si.sid res)).initReturns cfg (-1)).log
      = (s.log ++ [.registerReq si.sid res]) ++ cleanUpCalls s.streamItems := rfl
  -- the channel is counted among those created, but not among those on the list
  have hheld := h.emit (e := .registerReq si.sid res) hres
  have hlive : destroyedTimes c (s.log ++ [.registerReq si.sid res]) = 0 :=
    List.count_eq_zero.mpr (hheld.live c)
  have hone : itemsWith c [si] = 1 := by simp [itemsWith, hc]
  rw [hlog, destroyedTimes_append, createdTimes_append, hlive, destroyedTimes_cleanUpCalls,
    createdTimes_cleanUpCalls, hheld.channels c, itemsWith_append, hone] at hchannels
  omega

end Steps

theorem accounted_construct (t : ℚ) : Accounted (.construct t) where
  channels _ := rfl
  live _ h := List.not_mem_nil h
  requests _ h := (List.not_mem_nil h).elim

/-- **THE APP CLEANS UP** when it returns iff no registration failed of a stream for
    which a channel had been created. -/
theorem cleaned_iff_registers {cfg : AppCfg} {t : ℚ} {tr : List (Cpp × Answer)} {s : Cpp}
    (h : Run (CppStep cfg) (.construct t) tr s) :
    Along (fun s => s.phase = .returned → Cleaned s.log) tr s ↔ Meets Registers tr := by
  refine h.along_iff_meets (Q := Accounted) (accounted_construct t) (fun s hs hph => ?_)
    (fun hs hreg hst => accounted_step hs hreg hst) (fun hs hreg hst => not_cleaned_step hs hreg hst)
  rw [Accounted, hph] at hs
  exact hs

/-- An app that receives on one stream, through a channel of its own. -/
def ownChannelCfg : AppCfg := ⟨4, [⟨⟨1, 1, none, none⟩, true, some ⟨false, 8, 64⟩⟩], 0, 0⟩

/-- The app has created its channel and is about to register the stream. -/
def ownChannelCreated : Cpp :=
  ⟨.register ⟨.replicate 16 0, false, some 7⟩ [], 0, 0, [], none,
    [.channelCreate ⟨false, 8, 64⟩ (.replicate 16 0) (some 7)]⟩

theorem run_ownChannel : ∃ tr, Run (CppStep ownChannelCfg) (.construct 0) tr ownChannelCreated
    ∧ Meets Registers tr := by
  have h₁ := Run.start.next (@CppStep.answer ownChannelCfg (.construct 0) _ (.start 0))
  have h₂ := h₁.next (.answer (.generate _ _ 1 (.replicate 16 0)))
  have h₃ := h₂.next (.answer (.create _ _ _ _ (some 7)))
  refine ⟨_, h₃, meets_snoc.mpr ⟨meets_snoc.mpr ⟨meets_snoc.mpr ⟨meets_nil, ?_⟩, ?_⟩, ?_⟩⟩
  · rintro si rest res hph -
    cases hph
  · rintro si rest res hph -
    cases hph
  · rintro si rest res hph -
    cases hph

/-- The stream is registered, and the app told to exit. -/
theorem cleaned_ownChannel : ∃ tr s, Run (CppStep ownChannelCfg) (.construct 0) tr s
    ∧ s.phase = .returned ∧ Cleaned s.log := by
  obtain ⟨tr, hrun, hmeets⟩ := run_ownChannel
  have h₁ := hrun.next (.answer (.register _ _ 1))
  have h₂ := h₁.next (.answer (.loop true))
  refine ⟨_, _, h₂, rfl, ((cleaned_iff_registers h₂).mpr ?_).2 rfl⟩
  refine meets_snoc.mpr ⟨meets_snoc.mpr ⟨hmeets, ?_⟩, ?_⟩
  · intro si rest res _ ha
    cases ha
    exact Or.inl rfl
  · rintro si rest res hph -
    cases hph

/-- The registration fails, and the channel is never destroyed. -/
theorem ownChannel_left_behind :
    ¬ ∀ cfg t tr s, Run (CppStep cfg) (.construct t) tr s → s.phase = .returned →
      Cleaned s.log := by
  intro hall
  obtain ⟨tr, hrun, -⟩ := run_ownChannel
  have h₁ := hrun.next (.answer (.register _ _ 0))
  exact absurd ((hall _ _ _ _ h₁ rfl).channels 7) (by decide)

end JrtcWrapperApp
