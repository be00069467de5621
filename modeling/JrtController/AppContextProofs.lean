import JrtController.ControllerProofs

/-! # The router context an app runs with

    `load_app` returns the id of an app before the app's thread registers with the
    router; `run_app` stores what `jrtc_router_register_app` returns and goes on,
    also with NULL.

    * `Contexts` — what every run keeps: the context of an app in a slot is
      registered with the router and its own;
    * `Accepted` — what holds as long as the router can serve the apps that
      register;
    * `served_iff_registrable` — app code runs with a registered context, and no
      app is reported as loaded that the router refuses, iff it can. -/

namespace JrtcAppContext

open JrtcReqTable JrtcAppQueue JrtcController JrtcRouter Runs


/-- What every run keeps of the router contexts: that of an app in a slot is
    registered with the router, and no other app in a slot has it. -/
structure Contexts (s : Controller) : Prop where
  fresh : ∀ {e env}, s.thread e = some .created → s.env e = some env → env.dappCtx = none
  valid : ∀ {i e env a}, s.appEnvs i = some e → s.env e = some env →
    env.dappCtx = some a →
    a ∈ s.router.appBitmap ∧ ∃ dapp, s.router.ctx a = some dapp ∧ dapp.appId = a
  own   : ∀ {i j e e' env env' a}, s.appEnvs i = some e → s.appEnvs j = some e' →
    s.env e = some env → s.env e' = some env' → env.dappCtx = some a →
    env'.dappCtx = some a → e = e'

/-- What an app whose `load_app` returned an id can rely on: the router has
    accepted it; its entry point, if it has one, is called, with a context and never
    without; the context is registered with the router while the app's code runs. -/
structure Served (s : Controller) : Prop where
  defined  : s.status ≠ .undefined
  accepted : ∀ {e}, .registered e none ∉ s.log
  started  : ∀ {e}, .appStarted e none ∉ s.log
  invoked  : ∀ {e env t}, s.thread e = some t → s.env e = some env →
    (t = .inApp ∨ t = .ended ∧ env.appHandle.image.startApp = true) →
    .appStarted e env.dappCtx ∈ s.log
  running  : ∀ {e env}, s.thread e = some .inApp → s.env e = some env →
    ∃ a dapp, env.dappCtx = some a ∧ s.router.ctx a = some dapp ∧ dapp.appId = a

/-- When an app registers, its queue is not too large, the router has a free id and
    its allocations succeed.  Unloads name a slot. -/
def Registrable (s : Controller) : CtlCall → Prop
  | .unload appId => 0 ≤ appId ∧ appId < 64
  | .register e al => ∀ env, s.env e = some env →
      env.ioQueueSize.toNat ≤ maxAppQueueSize ∧ (∃ a, a ∉ s.router.appBitmap)
        ∧ al = ⟨true, true, true, true, true⟩
  | _ => True

/-- What is recorded of an app whose thread is at `t`, if the router accepts it. -/
structure Progress (s : Controller) (e : EnvId) (h : Handle) (ctx : Option AppId)
    (t : Thread) : Prop where
  context : t ≠ .created → ∃ a, ctx = some a
  noEntry : t = .noEntry → h.image.startApp = false
  started : t = .inApp ∨ t = .ended ∧ h.image.startApp = true →
    .appStarted e ctx ∈ s.log

structure Accepted (s : Controller) : Prop where
  log : ∀ e, .registered e none ∉ s.log ∧ .appStarted e none ∉ s.log
  app : ∀ {e env t}, s.env e = some env → s.thread e = some t →
    Progress s e env.appHandle env.dappCtx t

section

variable {s s' : Controller}

namespace Contexts

theorem frame (hc : Contexts s) (hw : s.Wf)
    (happ : ∀ {i e}, s'.appEnvs i = some e → s.appEnvs i = some e)
    (hthread : ∀ {e}, s'.thread e = some .created → s.thread e = some .created)
    (henv : ∀ {e t env'}, s.thread e = some t → s'.env e = some env' →
      ∃ env, s.env e = some env ∧ env'.dappCtx = env.dappCtx)
    (hrouter : s'.router = s.router) : Contexts s' where
  fresh := by
    intro e env' ht hx
    obtain ⟨env, henv, hctx⟩ := henv (hthread ht) hx
    rw [hctx]
    exact hc.fresh (hthread ht) henv
  valid := by
    intro i e env' a hi hx ha
    obtain ⟨t, ht⟩ := hw.slot (happ hi)
    obtain ⟨env, henv, hctx⟩ := henv ht hx
    rw [hrouter]
    exact hc.valid (happ hi) henv (hctx.symm.trans ha)
  own := by
    intro i j e e' x y a hi hj hx hy ha hb
    obtain ⟨t, ht⟩ := hw.slot (happ hi)
    obtain ⟨u, hu⟩ := hw.slot (happ hj)
    obtain ⟨env, henv₁, hctx⟩ := henv ht hx
    obtain ⟨env', henv₂, hctx'⟩ := henv hu hy
    exact hc.own (happ hi) (happ hj) henv₁ henv₂ (hctx.symm.trans ha) (hctx'.symm.trans hb)

theorem load (hc : Contexts s) (hw : s.Wf) (req : LoadReq) (out : LoadOutcome) :
    Contexts (loadApp s req out).2 := by
  have heff := loadApp_cases s req out
  generalize (loadApp s req out).1 = r, (loadApp s req out).2 = s' at heff
  cases heff with
  | refused => exact hc
  | noSlot => exact hc.frame hw id id (fun _ hx => ⟨_, hx, rfl⟩) rfl
  | noLibrary => exact hc.frame hw id id (fun _ hx => ⟨_, hx, rfl⟩) rfl
  | noThread => exact hc.frame hw id id (fun ht hx => ⟨_, hw.env_old ht hx, rfl⟩) rfl
  | @loaded image i _ _ hi =>
      -- the new app has no context yet
      have hctx : ∀ {e env a}, Function.update s.env s.nextEnv
          (some (fillEnv req ⟨s.nextEnv, image⟩)) e = some env → env.dappCtx = some a →
          s.env e = some env := by
        intro e env a hx ha
        rcases update_some hx with ⟨-, ⟨⟩⟩ | ⟨-, hx⟩
        · cases ha
        · exact hx
      have hslot : ∀ {j e env a}, Function.update s.appEnvs i (some s.nextEnv) j = some e →
          Function.update s.env s.nextEnv
            (some (fillEnv req ⟨s.nextEnv, image⟩)) e = some env →
          env.dappCtx = some a → s.appEnvs j = some e := by
        intro j e env a hj hx ha
        rcases update_some hj with ⟨-, ⟨⟩⟩ | ⟨-, hj⟩
        · rw [Function.update_self] at hx
          obtain rfl := Option.some.inj hx
          cases ha
        · exact hj
      refine ⟨?_, ?_, ?_⟩
      · intro e env ht hx
        rcases update_some hx with ⟨-, ⟨⟩⟩ | ⟨hne, hx⟩
        · rfl
        · rcases update_some ht with ⟨heq, -⟩ | ⟨-, ht⟩
          · exact absurd heq hne
          · exact hc.fresh ht hx
      · intro j e env a hj hx ha
        exact hc.valid (hslot hj hx ha) (hctx hx ha) ha
      · intro j k e e' x y a hj hk hx hy ha hb
        exact hc.own (hslot hj hx ha) (hslot hk hy hb) (hctx hx ha) (hctx hy hb) ha hb

theorem unload (hc : Contexts s) (hw : s.Wf) (appId : Int) :
    Contexts (unloadApp s appId).2 := by
  rcases unloadApp_cases s appId with ⟨-, heq⟩ | ⟨i, -, -, heq⟩ | ⟨i, e, -, -, heq⟩
  · rw [heq]
    exact hc.frame hw id id (fun _ hx => ⟨_, hx, rfl⟩) rfl
  · rw [heq]
    exact hc
  · rw [heq]
    refine hc.frame hw id id ?_ rfl
    intro e' t x _ hx
    obtain ⟨y, hy, heq⟩ := env_of_exiting hx
    rw [heq]
    exact ⟨y, hy, rfl⟩

/-- The context that is given back belongs to no other app. -/
theorem joined (hc : Contexts s) (hw : s.Wf) {i : Slot} {e : EnvId} {env : AppEnv}
    {dlclosed : Bool} (hwait : s.unloading = some (i, e)) (henv : s.env e = some env) :
    Contexts (unloadJoined s i e env dlclosed) := by
  have hi := hw.waiting hwait
  rcases unloadJoined_cases hi env dlclosed with ⟨-, heq⟩ | ⟨-, heq⟩
  · rw [heq]
    exact hc.frame hw id id (fun _ hx => ⟨_, hx, rfl⟩) rfl
  rw [heq]
  have hslot : ∀ {j e'}, Function.update s.appEnvs i none j = some e' →
      s.appEnvs j = some e' ∧ e' ≠ e := by
    intro j e' hj
    obtain ⟨hne, hj⟩ := update_none_some hj
    refine ⟨hj, ?_⟩
    rintro rfl
    exact hne (hw.inj hj hi)
  refine ⟨hc.fresh, ?_, ?_⟩
  · intro j e' x b hj hx hb
    obtain ⟨hj, hne⟩ := hslot hj
    obtain ⟨hbit, dapp, hdapp, hid⟩ := hc.valid hj hx hb
    show b ∈ (deregisterApp s.router (env.dappCtx.bind s.router.ctx)).appBitmap
      ∧ ∃ dapp, (deregisterApp s.router (env.dappCtx.bind s.router.ctx)).ctx b = some dapp
        ∧ dapp.appId = b
    cases hctx : env.dappCtx with
    | none => exact ⟨hbit, dapp, hdapp, hid⟩
    | some a =>
        have hba : b ≠ a := by
          rintro rfl
          exact hne (hc.own hj hi hx henv hb hctx)
        obtain ⟨-, dapp', hdapp', hid'⟩ := hc.valid hi henv hctx
        rw [Option.bind_some, hdapp', deregisterApp, hid']
        refine ⟨Finset.mem_erase.mpr ⟨hba, hbit⟩, dapp, ?_, hid⟩
        show Function.update s.router.ctx a none b = some dapp
        rw [Function.update_of_ne hba, hdapp]
  · intro j k e₁ e₂ x y a hj hk hx hy ha hb
    exact hc.own (hslot hj).1 (hslot hk).1 hx hy ha hb

theorem advance (hc : Contexts s) (hw : s.Wf) (e : EnvId) {t' : Thread}
    (hne : t' ≠ .created) (evs : List Event) : Contexts (s.advance e t' evs) := by
  refine hc.frame hw id ?_ (fun _ hx => ⟨_, hx, rfl⟩) rfl
  intro e' ht
  rcases update_some ht with ⟨-, ⟨⟩⟩ | ⟨-, ht⟩
  · exact absurd rfl hne
  · exact ht

/-- A registration gives an app a context that no other app has. -/
theorem register (hc : Contexts s) (hw : s.Wf) {e : EnvId} {env : AppEnv}
    (ht : s.thread e = some .created) (henv : s.env e = some env) (al : AppAlloc) :
    Contexts (runRegister s e env al) := by
  have hcreated : ∀ {e'}, (runRegister s e env al).thread e' = some .created →
      s.thread e' = some .created ∧ e' ≠ e := by
    intro e' ht'
    rcases update_some ht' with ⟨-, ⟨⟩⟩ | ⟨hne, ht'⟩
    exact ⟨ht', hne⟩
  have hnone := hc.fresh ht henv
  rcases registerApp_cases s.router env.ioQueueSize.toNat al with heq | ⟨a, h, ha, heq⟩
  · refine hc.frame hw id (fun ht' => (hcreated ht').1) ?_ ?_
    · intro e' t x _ hx
      rcases runRegister_env hx with ⟨rfl, rfl⟩ | ⟨-, hx⟩
      · refine ⟨env, henv, ?_⟩
        rw [hnone, heq]
      · exact ⟨x, hx, rfl⟩
    · show (registerApp s.router env.ioQueueSize.toNat al).2 = s.router
      rw [heq]
  · have hrouter : (runRegister s e env al).router = { s.router with
        appBitmap := insert a s.router.appBitmap
        ctx := Function.update s.router.ctx a (some ⟨.fresh _ h, a⟩) } := by
      show (registerApp s.router env.ioQueueSize.toNat al).2 = _
      rw [heq]
    have hctx : ∀ {e' x b}, (runRegister s e env al).env e' = some x →
        x.dappCtx = some b → e' = e ∧ b = a ∨ e' ≠ e ∧ s.env e' = some x := by
      intro e' x b hx hb
      rcases runRegister_env hx with ⟨rfl, rfl⟩ | ⟨hne, hx⟩
      · refine Or.inl ⟨rfl, ?_⟩
        rw [heq] at hb
        exact (Option.some.inj hb).symm
      · exact Or.inr ⟨hne, hx⟩
    refine ⟨?_, ?_, ?_⟩
    · intro e' x ht' hx
      obtain ⟨ht', hne⟩ := hcreated ht'
      rcases runRegister_env hx with ⟨heq, -⟩ | ⟨-, hx⟩
      · exact absurd heq hne
      · exact hc.fresh ht' hx
    · intro i e' x b hi hx hb
      rw [hrouter]
      rcases hctx hx hb with ⟨-, rfl⟩ | ⟨-, hx⟩
      · exact ⟨Finset.mem_insert_self .., _, Function.update_self .., rfl⟩
      · obtain ⟨hbit, dapp, hdapp, hid⟩ := hc.valid hi hx hb
        have hba : b ≠ a := fun hba => ha (hba ▸ hbit)
        exact ⟨Finset.mem_insert_of_mem hbit, dapp,
          (Function.update_of_ne hba _ _).trans hdapp, hid⟩
    · intro i j e₁ e₂ x y b hi hj hx hy hb hb'
      rcases hctx hx hb with ⟨rfl, rfl⟩ | ⟨-, hx⟩
      · rcases hctx hy hb' with ⟨rfl, -⟩ | ⟨-, hy⟩
        · rfl
        · exact absurd (hc.valid hj hy hb').1 ha
      · rcases hctx hy hb' with ⟨-, rfl⟩ | ⟨-, hy⟩
        · exact absurd (hc.valid hi hx hb).1 ha
        · exact hc.own hi hj hx hy hb hb'

theorem step (hc : Contexts s) (hw : s.Wf) {l : CtlCall} (hs : CtlStep s l s') :
    Contexts s' := by
  cases hs with
  | load => exact hc.load hw _ _
  | unload => exact hc.unload hw _
  | joined _ hwait henv => exact hc.joined hw hwait henv
  | register _ ht henv => exact hc.register hw ht henv _
  | configure => exact hc.advance hw _ Thread.noConfusion _
  | resolve =>
      unfold runResolve
      split
      · exact hc.advance hw _ Thread.noConfusion _
      · exact hc.advance hw _ Thread.noConfusion _
  | closeLibrary => exact hc.advance hw _ Thread.noConfusion _
  | appReturns => exact hc.advance hw _ Thread.noConfusion _

end Contexts

/-- A step that moves no thread and starts nothing. -/
theorem Accepted.frame (h : Accepted s) {evs : List Event} (hlog : s'.log = s.log ++ evs)
    (hevs : ∀ ev ∈ evs, (∀ e, ev ≠ .registered e none) ∧ ∀ e, ev ≠ .appStarted e none)
    (happ : ∀ {e env' t}, s'.env e = some env' → s'.thread e = some t →
      (∃ env, s.env e = some env ∧ s.thread e = some t
        ∧ env'.appHandle = env.appHandle ∧ env'.dappCtx = env.dappCtx)
      ∨ Progress s' e env'.appHandle env'.dappCtx t) : Accepted s' where
  log := by
    intro e
    rw [hlog]
    refine ⟨fun hmem => ?_, fun hmem => ?_⟩
    · rcases List.mem_append.mp hmem with hmem | hmem
      · exact (h.log e).1 hmem
      · exact (hevs _ hmem).1 e rfl
    · rcases List.mem_append.mp hmem with hmem | hmem
      · exact (h.log e).2 hmem
      · exact (hevs _ hmem).2 e rfl
  app := by
    intro e env' t hx ht
    rcases happ hx ht with ⟨env, henv, ht', hh, hctx⟩ | hp
    · obtain ⟨hsome, hno, hstart⟩ := h.app henv ht'
      rw [hh, hctx]
      refine ⟨hsome, hno, fun hin => ?_⟩
      rw [hlog]
      exact List.mem_append_left _ (hstart hin)
    · exact hp

/-- An app whose thread has neither reached its code nor ended. -/
theorem Progress.of_waiting {e : EnvId} {h : Handle} {ctx : Option AppId} {t : Thread}
    (hctx : t ≠ .created → ∃ a, ctx = some a)
    (hno : t = .noEntry → h.image.startApp = false) (hin : t ≠ .inApp)
    (hend : t ≠ .ended) : Progress s e h ctx t :=
  ⟨hctx, hno, fun hstart => (hstart.elim hin fun h => hend h.1).elim⟩

theorem Accepted.load (h : Accepted s) (hw : s.Wf) (req : LoadReq) (out : LoadOutcome) :
    Accepted (loadApp s req out).2 := by
  have heff := loadApp_cases s req out
  generalize (loadApp s req out).1 = r, (loadApp s req out).2 = s' at heff
  cases heff with
  | refused => exact h
  | noSlot =>
      refine h.frame (List.append_nil _).symm (fun ev hev => absurd hev List.not_mem_nil) ?_
      exact fun hx ht => Or.inl ⟨_, hx, ht, rfl, rfl⟩
  | noLibrary =>
      refine h.frame rfl (by simp) ?_
      exact fun hx ht => Or.inl ⟨_, hx, ht, rfl, rfl⟩
  | noThread =>
      refine h.frame rfl (by simp) ?_
      exact fun hx ht => Or.inl ⟨_, hw.env_old ht hx, ht, rfl, rfl⟩
  | loaded =>
      refine h.frame (List.append_nil _).symm (fun ev hev => absurd hev List.not_mem_nil) ?_
      intro e env' t hx ht
      rcases update_some ht with ⟨-, ⟨⟩⟩ | ⟨-, ht⟩
      · exact Or.inr (.of_waiting (fun hne => absurd rfl hne) Thread.noConfusion
          Thread.noConfusion Thread.noConfusion)
      · exact Or.inl ⟨_, hw.env_old ht hx, ht, rfl, rfl⟩

theorem Accepted.unload (h : Accepted s) (appId : Int) :
    Accepted (unloadApp s appId).2 := by
  have hlog : s.log = s.log ++ [] := (List.append_nil _).symm
  rcases unloadApp_cases s appId with ⟨-, heq⟩ | ⟨i, -, -, heq⟩ | ⟨i, e, -, -, heq⟩
  · rw [heq]
    refine h.frame hlog (fun ev hev => absurd hev List.not_mem_nil) ?_
    exact fun hx ht => Or.inl ⟨_, hx, ht, rfl, rfl⟩
  · rw [heq]
    exact h
  · rw [heq]
    refine h.frame hlog (fun ev hev => absurd hev List.not_mem_nil) ?_
    intro e' x t hx ht
    obtain ⟨y, hy, heq⟩ := env_of_exiting hx
    rw [heq]
    exact Or.inl ⟨y, hy, ht, rfl, rfl⟩

theorem Accepted.joined (h : Accepted s) (hw : s.Wf) {i : Slot} {e : EnvId}
    {env : AppEnv} {dlclosed : Bool} (hwait : s.unloading = some (i, e)) :
    Accepted (unloadJoined s i e env dlclosed) := by
  rcases unloadJoined_cases (hw.waiting hwait) env dlclosed with ⟨-, heq⟩ | ⟨-, heq⟩
  · rw [heq]
    exact h.frame rfl (by simp) fun hx ht => Or.inl ⟨_, hx, ht, rfl, rfl⟩
  · rw [heq]
    exact h.frame rfl (by simp) fun hx ht => Or.inl ⟨_, hx, ht, rfl, rfl⟩

/-- The router accepts the app that registers. -/
theorem Accepted.register (h : Accepted s) {e : EnvId} {env : AppEnv} {al : AppAlloc}
    (hsize : env.ioQueueSize.toNat ≤ maxAppQueueSize) (hfree : ∃ a, a ∉ s.router.appBitmap)
    (hal : al = ⟨true, true, true, true, true⟩) : Accepted (runRegister s e env al) := by
  have hsome : (registerApp s.router env.ioQueueSize.toNat al).1 ≠ none := fun hnone =>
    (registerApp_eq_none_iff ..).mp hnone ⟨hsize, hfree, hal⟩
  refine h.frame rfl ?_ ?_
  · intro ev hev
    rw [List.mem_singleton.mp hev]
    refine ⟨fun e' heq => ?_, fun e' => Event.noConfusion⟩
    exact hsome (Event.registered.inj heq).2
  · intro e' x t hx ht
    rcases runRegister_env hx with ⟨rfl, rfl⟩ | ⟨hne, hx⟩
    · rw [runRegister_thread_self] at ht
      obtain rfl := Option.some.inj ht
      exact Or.inr (.of_waiting (fun _ => Option.ne_none_iff_exists'.mp hsome)
        Thread.noConfusion Thread.noConfusion Thread.noConfusion)
    · exact Or.inl ⟨x, hx, (Function.update_of_ne hne _ _).symm.trans ht, rfl, rfl⟩

theorem Accepted.advance (h : Accepted s) {e : EnvId} {env : AppEnv}
    (henv : s.env e = some env) {t' : Thread} {evs : List Event}
    (hevs : ∀ ev ∈ evs, (∀ e, ev ≠ .registered e none) ∧ ∀ e, ev ≠ .appStarted e none)
    (hp : Progress (s.advance e t' evs) e env.appHandle env.dappCtx t') :
    Accepted (s.advance e t' evs) := by
  refine h.frame rfl hevs ?_
  intro e' x t hx ht
  by_cases hee : e' = e
  · subst hee
    rw [Controller.advance_thread_self] at ht
    obtain rfl := Option.some.inj ht
    obtain rfl := Option.some.inj (henv.symm.trans hx)
    exact Or.inr hp
  · exact Or.inl ⟨x, hx, (Function.update_of_ne hee _ _).symm.trans ht, rfl, rfl⟩

/-- **NO APP IS REFUSED** as long as the router can serve those that register. -/
theorem Accepted.step (h : Accepted s) (hw : s.Wf) {l : CtlCall} (hC : Registrable s l)
    (hs : CtlStep s l s') : Accepted s' := by
  cases hs with
  | load => exact h.load hw _ _
  | unload => exact h.unload _
  | joined _ hwait => exact h.joined hw hwait
  | register _ _ henv =>
      obtain ⟨hsize, hfree, hal⟩ := hC _ henv
      exact h.register hsize hfree hal
  | @configure e env _ ht henv =>
      refine h.advance henv (by split <;> simp) (.of_waiting (fun _ => ?_)
        Thread.noConfusion Thread.noConfusion Thread.noConfusion)
      exact (h.app henv ht).context Thread.noConfusion
  | @resolve e env _ ht henv =>
      obtain ⟨a, ha⟩ := (h.app henv ht).context Thread.noConfusion
      unfold runResolve
      split
      case _ hstart =>
        refine h.advance henv ?_ ⟨fun _ => ⟨a, ha⟩, Thread.noConfusion, fun _ => ?_⟩
        · simp [ha]
        · exact List.mem_append_right _ (List.mem_singleton_self _)
      case _ hstart =>
        exact h.advance henv (fun ev hev => absurd hev List.not_mem_nil)
          (.of_waiting (fun _ => ⟨a, ha⟩) (fun _ => Bool.eq_false_iff.mpr hstart)
            Thread.noConfusion Thread.noConfusion)
  | @closeLibrary e env _ ht henv =>
      obtain ⟨hctx, hno, -⟩ := h.app henv ht
      refine h.advance henv (by simp) ⟨fun _ => hctx Thread.noConfusion,
        Thread.noConfusion, ?_⟩
      rintro (h | ⟨-, hstart⟩)
      · cases h
      · rw [hno rfl] at hstart
        cases hstart
  | @appReturns e _ ht =>
      obtain ⟨-, env, henv⟩ := hw.thread ht
      obtain ⟨hctx, -, hstart⟩ := h.app henv ht
      refine h.advance henv (fun ev hev => absurd hev List.not_mem_nil)
        ⟨fun _ => hctx Thread.noConfusion, Thread.noConfusion, fun _ => ?_⟩
      exact List.mem_append_left _ (hstart (Or.inl rfl))

theorem served_of_accepted (hw : s.Wf) (hc : Contexts s) (h : Accepted s)
    (hst : s.status ≠ .undefined) : Served s where
  defined := hst
  accepted := (h.log _).1
  started := (h.log _).2
  invoked ht henv hin := (h.app henv ht).started hin
  running := by
    intro e env ht henv
    obtain ⟨i, hi⟩ := hw.active ht Thread.noConfusion
    obtain ⟨a, ha⟩ := (h.app henv ht).context Thread.noConfusion
    obtain ⟨-, dapp, hdapp, hid⟩ := hc.valid hi henv ha
    exact ⟨a, dapp, ha, hdapp, hid⟩

/-- A registration that the router refuses is recorded, and the app is loaded. -/
theorem not_served {l : CtlCall} (hC : ¬ Registrable s l)
    (hs : CtlStep s l s') : ¬ Served s' := by
  intro hd
  cases hs with
  | unload => exact hd.defined (unloadApp_undefined s hC)
  | @register e env al _ ht henv =>
      have hnone : (registerApp s.router env.ioQueueSize.toNat al).1 = none := by
        refine (registerApp_eq_none_iff ..).mpr fun hok => hC ?_
        intro env' henv'
        obtain rfl := Option.some.inj (henv.symm.trans henv')
        exact hok
      have hmem : Event.registered e (registerApp s.router env.ioQueueSize.toNat al).1
          ∈ (runRegister s e env al).log :=
        List.mem_append_right _ (List.mem_singleton_self _)
      rw [hnone] at hmem
      exact hd.accepted hmem
  | load => exact hC trivial
  | joined => exact hC trivial
  | configure => exact hC trivial
  | resolve => exact hC trivial
  | closeLibrary => exact hC trivial
  | appReturns => exact hC trivial

theorem contexts_init (router : RouterCtx) : Contexts (Controller.init router) where
  fresh h := by cases h
  valid h := by cases h
  own h := by cases h

theorem accepted_init (router : RouterCtx) : Accepted (Controller.init router) where
  log _ := ⟨List.not_mem_nil, List.not_mem_nil⟩
  app h := by cases h

/-- **APP CODE RUNS WITH A REGISTERED CONTEXT**, and no app is reported as loaded
    that the router refuses, iff the router can serve every app that registers. -/
theorem served_iff_registrable {router : RouterCtx} {tr : List (Controller × CtlCall)}
    {s : Controller} (h : Run CtlStep (Controller.init router) tr s) :
    Along Served tr s ↔ Meets Registrable tr := by
  refine h.along_iff_meets
    (Q := fun s => s.Wf ∧ Contexts s ∧ Accepted s ∧ s.status ≠ .undefined)
    ⟨Controller.wf_init router, contexts_init router, accepted_init router,
      Status.noConfusion⟩ ?_ ?_ ?_
  · rintro s ⟨hw, hc, ha, hst⟩
    exact served_of_accepted hw hc ha hst
  · rintro s l s' ⟨hw, hc, ha, -⟩ hC hs
    refine ⟨hw.step hs, hc.step hw hs, ha.step hw hC hs, hs.defined hw ?_⟩
    rintro appId rfl
    exact hC
  · intro s l s' _ hC hs
    exact not_served hC hs

end

/-- The first app registers and its code runs. -/
theorem served_first_app : ∃ tr s,
    Run CtlStep (Controller.init World.init.router) tr s ∧ Along Served tr s
      ∧ s.thread 0 = some .inApp := by
  have hinit : Run CtlStep (Controller.init World.init.router) [] _ := Run.start
  have hload := hinit.next
    (@CtlStep.load _ (plainReq true 0) ⟨true, true, true⟩ ⟨rfl, rfl⟩)
  have hreg := hload.next
    (@CtlStep.register _ 0 _ ⟨true, true, true, true, true⟩ rfl rfl rfl)
  have hconf := hreg.next (@CtlStep.configure _ 0 _ rfl rfl rfl)
  have hres := hconf.next (@CtlStep.resolve _ 0 _ rfl rfl rfl)
  refine ⟨_, _, hres, (served_iff_registrable hres).mpr ?_, rfl⟩
  simp only [meets_snoc, Registrable, meets_nil, and_true, true_and]
  rintro env ⟨⟩
  exact ⟨Nat.zero_le _, 0, Finset.notMem_empty _⟩

/-- An app whose queue is too large is loaded all the same, and its code runs
    without a context. -/
theorem app_runs_without_context : ¬ ∀ (router : RouterCtx)
    (tr : List (Controller × CtlCall)) (s : Controller),
    Run CtlStep (Controller.init router) tr s → Along Served tr s := by
  intro h
  have hinit : Run CtlStep (Controller.init World.init.router) [] _ := Run.start
  have hload := hinit.next
    (@CtlStep.load _ (plainReq true 10001) ⟨true, true, true⟩ ⟨rfl, rfl⟩)
  have hreg := hload.next
    (@CtlStep.register _ 0 _ ⟨true, true, true, true, true⟩ rfl rfl rfl)
  have hconf := hreg.next (@CtlStep.configure _ 0 _ rfl rfl rfl)
  have hres := hconf.next (@CtlStep.resolve _ 0 _ rfl rfl rfl)
  refine (h _ _ _ hres).2.started (e := 0) ?_
  exact List.mem_append_right _ (List.mem_singleton_self _)

end JrtcAppContext
