import JrtController.ControllerProofs

/-! # What becomes of an app's library, context and slot

    `load_app` opens the library of an app, `run_app` gets it a router context in
    the app's own thread, and `unload_app` waits for the thread and gives library,
    context and slot back.  `run_app` closes the library itself if it has no entry
    point, and `unload_app` does not know.

    * `Account` — what was given back of an app, by where its thread is;
    * `accounted_step` — every step keeps the account as long as the libraries that
      are unloaded have an entry point;
    * `disposed_iff_entry` — hence each is given back once iff they all have. -/

namespace JrtcAppLifecycle

open JrtcReqTable JrtcController JrtcRouter Runs

/-- How often a router context was given back for an app. -/
def deregisters (s : Controller) (e : EnvId) (ctx : Option AppId) : Nat :=
  s.log.count (.deregister e ctx)

/-- What life cycle an app has, once `load_app` has returned its id: nothing is
    given back twice, and all of it once the app has left its slot. -/
structure Disposed (s : Controller) : Prop where
  defined : s.status ≠ .undefined
  once    : ∀ {e env t}, s.env e = some env → s.thread e = some t →
    s.closes env.appHandle ≤ 1 ∧ s.releases e ≤ 1
      ∧ ∀ a, env.dappCtx = some a → deregisters s e (some a) ≤ 1
  all     : ∀ {e env t}, s.env e = some env → s.thread e = some t →
    (∀ i, s.appEnvs i ≠ some e) →
    s.closes env.appHandle = 1 ∧ s.releases e = 1
      ∧ ∀ a, env.dappCtx = some a → deregisters s e (some a) = 1

/-- The library of an app that is unloaded exports `jrtc_start_app`.  Unloads name
    a slot. -/
def Entry (s : Controller) : CtlCall → Prop
  | .unload appId => 0 ≤ appId ∧ appId < 64
  | .joined _ => ∀ i e env, s.unloading = some (i, e) → s.env e = some env →
      env.appHandle.image.startApp = true
  | _ => True

/-- What was given back of an app whose thread is at `t`.  In a slot, only the else
    branch of `run_app` has closed anything; after the unload all is given back. -/
structure Account (s : Controller) (e : EnvId) (h : Handle) (ctx : Option AppId)
    (t : Thread) : Prop where
  inApp   : t = .inApp → h.image.startApp = true
  noEntry : t = .noEntry → h.image.startApp = false
  live    : ∀ {i}, s.appEnvs i = some e →
    s.closes h = (if t = .ended ∧ h.image.startApp = false then 1 else 0)
      ∧ s.releases e = 0 ∧ ∀ c, deregisters s e c = 0
  gone    : (∀ i, s.appEnvs i ≠ some e) →
    s.closes h = 1 ∧ s.releases e = 1 ∧ deregisters s e ctx = 1

def Accounted (s : Controller) : Prop :=
  ∀ e env t, s.env e = some env → s.thread e = some t →
    Account s e env.appHandle env.dappCtx t

section

variable {s s' : Controller}

/-- Events of other apps do not count. -/
theorem count_append_of_env_ne {evs : List Event} {ev : Event}
    (hlog : s'.log = s.log ++ evs) (hevs : ∀ x ∈ evs, x.env ≠ ev.env) :
    s'.log.count ev = s.log.count ev := by
  rw [hlog, List.count_append, List.count_eq_zero.mpr fun hmem => hevs ev hmem rfl,
    Nat.add_zero]

/-- A step that neither moves an app nor records anything of it. -/
theorem Account.frame {e : EnvId} {h : Handle} {ctx : Option AppId} {t : Thread}
    (ha : Account s e h ctx t) (hh : h.env = e)
    (happ : ∀ i, s'.appEnvs i = some e ↔ s.appEnvs i = some e)
    (hlog : ∀ ev : Event, ev.env = e → s'.log.count ev = s.log.count ev) :
    Account s' e h ctx t where
  inApp := ha.inApp
  noEntry := ha.noEntry
  live := by
    intro i hi
    obtain ⟨hcl, hrel, hdereg⟩ := ha.live ((happ i).mp hi)
    refine ⟨(hlog (.dlclose h) hh).trans hcl, (hlog (.release e) rfl).trans hrel, ?_⟩
    exact fun c => (hlog (.deregister e c) rfl).trans (hdereg c)
  gone := by
    intro hnot
    obtain ⟨hcl, hrel, hdereg⟩ := ha.gone fun i hi => hnot i ((happ i).mpr hi)
    exact ⟨(hlog (.dlclose h) hh).trans hcl, (hlog (.release e) rfl).trans hrel,
      (hlog (.deregister e ctx) rfl).trans hdereg⟩

/-- A thread in its slot moves on; `close` counts the libraries it closes. -/
theorem Account.advance {e : EnvId} {h : Handle} {ctx ctx' : Option AppId}
    {t t' : Thread} {i : Slot} (ha : Account s e h ctx t) (hi : s.appEnvs i = some e)
    (hne : t ≠ .ended) (happ : s'.appEnvs = s.appEnvs) {evs : List Event}
    (hlog : s'.log = s.log ++ evs)
    (hrel : evs.count (.release e) = 0) (hdereg : ∀ c, evs.count (.deregister e c) = 0)
    (hcl : evs.count (.dlclose h)
      = if t' = .ended ∧ h.image.startApp = false then 1 else 0)
    (hinApp : t' = .inApp → h.image.startApp = true)
    (hnoEntry : t' = .noEntry → h.image.startApp = false) :
    Account s' e h ctx' t' where
  inApp := hinApp
  noEntry := hnoEntry
  live := by
    intro j _
    obtain ⟨hcl₀, hrel₀, hdereg₀⟩ := ha.live hi
    rw [if_neg fun hend => hne hend.1] at hcl₀
    refine ⟨?_, ?_, fun c => ?_⟩
    · rw [Controller.closes] at hcl₀
      rw [Controller.closes, hlog, List.count_append, hcl, hcl₀, Nat.zero_add]
    · rw [Controller.releases, hlog, List.count_append, hrel]
      exact hrel₀
    · rw [deregisters, hlog, List.count_append, hdereg]
      exact hdereg₀ c
  gone := by
    intro hnot
    rw [happ] at hnot
    exact absurd hi (hnot i)

/-- A load that fails records nothing of the apps there are. -/
theorem accounted_of_failed (hw : s.Wf) (ha : Accounted s) {env : Option AppEnv}
    {evs : List Event} (happ : s'.appEnvs = s.appEnvs) (hthread : s'.thread = s.thread)
    (henv : s'.env = Function.update s.env s.nextEnv env)
    (hlog : s'.log = s.log ++ evs) (hevs : ∀ ev ∈ evs, ev.env = s.nextEnv) :
    Accounted s' := by
  intro e x t hx ht
  rw [hthread] at ht
  have hne : e ≠ s.nextEnv := Nat.ne_of_lt (hw.thread ht).1
  rw [henv, Function.update_of_ne hne] at hx
  refine (ha e x t hx ht).frame (hw.handle hx) (fun i => by rw [happ]) ?_
  intro ev hev
  refine count_append_of_env_ne hlog fun y hy => ?_
  rw [hevs y hy, hev]
  exact hne.symm

theorem accounted_load (hw : s.Wf) (ha : Accounted s) (req : LoadReq)
    (out : LoadOutcome) : Accounted (loadApp s req out).2 := by
  have hself : s.env = Function.update s.env s.nextEnv (s.env s.nextEnv) :=
    (Function.update_eq_self ..).symm
  have heff := loadApp_cases s req out
  generalize (loadApp s req out).1 = r, (loadApp s req out).2 = s' at heff
  cases heff with
  | refused => exact ha
  | noSlot =>
      exact accounted_of_failed hw ha rfl rfl hself (List.append_nil _).symm
        fun ev hev => absurd hev List.not_mem_nil
  | noLibrary => exact accounted_of_failed hw ha rfl rfl hself rfl (by simp [Event.env])
  | noThread => exact accounted_of_failed hw ha rfl rfl rfl rfl (by simp [Event.env])
  | @loaded image i _ _ hi =>
      intro e x t hx ht
      rcases update_some ht with ⟨rfl, ⟨⟩⟩ | ⟨hne, ht⟩
      · rcases update_some hx with ⟨-, ⟨⟩⟩ | ⟨hne, -⟩
        · refine ⟨Thread.noConfusion, Thread.noConfusion, ?_, ?_⟩
          · intro j _
            rw [if_neg fun h => Thread.noConfusion h.1]
            exact ⟨hw.count_fresh le_rfl, hw.count_fresh le_rfl,
              fun c => hw.count_fresh le_rfl⟩
          · intro hnot
            exact absurd (Function.update_self ..) (hnot i)
        · exact absurd rfl hne
      · rcases update_some hx with ⟨heq, -⟩ | ⟨-, hx⟩
        · exact absurd heq hne
        · refine (ha e x t hx ht).frame (hw.handle hx) ?_ fun _ _ => rfl
          intro j
          constructor
          · intro hj
            rcases update_some hj with ⟨-, ⟨⟩⟩ | ⟨-, hj⟩
            · exact absurd rfl hne
            · exact hj
          · exact fun hj => update_of_free hi hj

/-- `unload_app` gives nothing back before it waits. -/
theorem accounted_unload (hw : s.Wf) (ha : Accounted s) (appId : Int) :
    Accounted (unloadApp s appId).2 := by
  rcases unloadApp_cases s appId with ⟨-, heq⟩ | ⟨i, -, -, heq⟩ | ⟨i, e, -, -, heq⟩
  · rw [heq]
    intro e x t hx ht
    exact (ha e x t hx ht).frame (hw.handle hx) (fun _ => Iff.rfl) fun _ _ => rfl
  · rw [heq]
    exact ha
  · rw [heq]
    intro e' x t hx ht
    obtain ⟨y, hy, heq⟩ := env_of_exiting hx
    rw [heq]
    exact (ha e' y t hy ht).frame (hw.handle hy) (fun _ => Iff.rfl) fun _ _ => rfl

/-- An unload whose library has an entry point gives everything back. -/
theorem accounted_joined (hw : s.Wf) (ha : Accounted s) {i : Slot} {e : EnvId}
    {env : AppEnv} {dlclosed : Bool} (hwait : s.unloading = some (i, e))
    (henv : s.env e = some env) (hend : s.thread e = some .ended)
    (hclose : s.closes env.appHandle = 0 → dlclosed = true)
    (hstart : env.appHandle.image.startApp = true) :
    Accounted (unloadJoined s i e env dlclosed) := by
  have hi := hw.waiting hwait
  obtain ⟨hcl, hrel, hdereg⟩ := (ha e env _ henv hend).live hi
  rw [hstart, if_neg fun h => Bool.false_ne_true h.2.symm] at hcl
  rcases unloadJoined_cases hi env dlclosed with ⟨hno, -⟩ | ⟨-, heq⟩
  · rw [hclose hcl] at hno
    cases hno
  rw [heq]
  intro e' x t hx ht
  by_cases hee : e' = e
  · subst hee
    obtain rfl := Option.some.inj (henv.symm.trans hx)
    obtain rfl := Option.some.inj (hend.symm.trans ht)
    refine ⟨Thread.noConfusion, Thread.noConfusion, ?_, ?_⟩
    · intro j hj
      obtain ⟨hne, hj⟩ := update_none_some hj
      exact absurd (hw.inj hj hi) hne
    · intro _
      simp only [Controller.closes, Controller.releases, deregisters] at hcl hrel hdereg ⊢
      simp [List.count_append, hcl, hrel, hdereg]
  · refine (ha e' x t hx ht).frame (hw.handle hx) ?_ ?_
    · intro j
      constructor
      · exact fun hj => (update_none_some hj).2
      · intro hj
        refine (Function.update_of_ne ?_ _ _).trans hj
        rintro rfl
        exact hee (Option.some.inj (hj.symm.trans hi))
    · intro ev hev
      refine count_append_of_env_ne rfl fun y hy => ?_
      have hye : y.env = e := by
        simp only [List.mem_cons, List.not_mem_nil, or_false] at hy
        rcases hy with rfl | rfl | rfl | rfl
        · exact hw.handle henv
        all_goals rfl
      rw [hye, hev]
      exact Ne.symm hee

/-- A step of one thread concerns one app. -/
theorem accounted_ran (hw : s.Wf) (ha : Accounted s) {e : EnvId} (hr : Ran s e s')
    (hself : ∀ {env t}, s'.env e = some env → s'.thread e = some t →
      Account s' e env.appHandle env.dappCtx t) : Accounted s' := by
  intro e' x t hx ht
  by_cases hee : e' = e
  · subst hee
    exact hself hx ht
  · rw [(hr.other e' hee).1] at hx
    rw [(hr.other e' hee).2] at ht
    refine (ha e' x t hx ht).frame (hw.handle hx) (fun i => by rw [hr.appEnvs]) ?_
    intro ev hev
    obtain ⟨evs, hlog, hevs⟩ := hr.log
    refine count_append_of_env_ne hlog fun y hy => ?_
    rw [(hevs y hy).1, hev]
    exact Ne.symm hee

/-- A step of `run_app` that only moves the thread on. -/
theorem accounted_advance (hw : s.Wf) (ha : Accounted s) {e : EnvId} {env : AppEnv}
    {t t' : Thread} {evs : List Event} (ht : s.thread e = some t) (hne : t ≠ .ended)
    (henv : s.env e = some env)
    (hevs : ∀ ev ∈ evs, ev.env = e ∧ ev ≠ .free e ∧ ev ≠ .release e)
    (hdereg : ∀ c, evs.count (.deregister e c) = 0)
    (hcl : evs.count (.dlclose env.appHandle)
      = if t' = .ended ∧ env.appHandle.image.startApp = false then 1 else 0)
    (hinApp : t' = .inApp → env.appHandle.image.startApp = true)
    (hnoEntry : t' = .noEntry → env.appHandle.image.startApp = false) :
    Accounted (s.advance e t' evs) := by
  obtain ⟨i, hi⟩ := hw.active ht hne
  refine accounted_ran hw ha (Ran.advance ht hne t' hevs) fun hx ht' => ?_
  obtain rfl := Option.some.inj (henv.symm.trans hx)
  rw [Controller.advance_thread_self] at ht'
  obtain rfl := Option.some.inj ht'
  refine (ha e env t henv ht).advance hi hne rfl rfl ?_ hdereg hcl hinApp hnoEntry
  exact List.count_eq_zero.mpr fun hmem => (hevs _ hmem).2.2 rfl

/-- **THE ACCOUNT IS KEPT** as long as the libraries that are unloaded have an
    entry point. -/
theorem accounted_step (hw : s.Wf) (ha : Accounted s) {l : CtlCall} (hC : Entry s l)
    (hs : CtlStep s l s') : Accounted s' := by
  cases hs with
  | load => exact accounted_load hw ha _ _
  | unload => exact accounted_unload hw ha _
  | joined _ hwait henv hend hclose =>
      exact accounted_joined hw ha hwait henv hend hclose (hC _ _ _ hwait henv)
  | @register e env al _ ht henv =>
      obtain ⟨i, hi⟩ := hw.active ht Thread.noConfusion
      refine accounted_ran hw ha (Ran.register ht henv al) fun hx ht' => ?_
      rw [runRegister_env_self] at hx
      rw [runRegister_thread_self] at ht'
      obtain rfl := Option.some.inj hx
      obtain rfl := Option.some.inj ht'
      refine (ha e env _ henv ht).advance hi Thread.noConfusion rfl rfl ?_ ?_ ?_ ?_ ?_
      · simp
      · simp
      · simp
      · exact Thread.noConfusion
      · exact Thread.noConfusion
  | @configure e env _ ht henv =>
      refine accounted_advance hw ha ht Thread.noConfusion henv ?_ ?_ ?_ ?_ ?_
      · split <;> simp [Event.env]
      · split <;> simp
      · split <;> simp
      · exact Thread.noConfusion
      · exact Thread.noConfusion
  | @resolve e env _ ht henv =>
      unfold runResolve
      split
      case _ hstart =>
        refine accounted_advance hw ha ht Thread.noConfusion henv ?_ ?_ ?_ ?_ ?_
        · simp [Event.env]
        · simp
        · simp
        · exact fun _ => hstart
        · exact Thread.noConfusion
      case _ hstart =>
        refine accounted_advance hw ha ht Thread.noConfusion henv ?_ ?_ ?_ ?_ ?_
        · simp
        · simp
        · simp
        · exact Thread.noConfusion
        · exact fun _ => Bool.eq_false_iff.mpr hstart
  | @closeLibrary e env _ ht henv =>
      have hstart := (ha e env _ henv ht).noEntry rfl
      refine accounted_advance hw ha ht Thread.noConfusion henv ?_ ?_ ?_ ?_ ?_
      · simp [Event.env, hw.handle henv]
      · simp
      · simp [hstart]
      · exact Thread.noConfusion
      · exact Thread.noConfusion
  | @appReturns e _ ht =>
      obtain ⟨-, env, henv⟩ := hw.thread ht
      have hstart := (ha e env _ henv ht).inApp rfl
      refine accounted_advance hw ha ht Thread.noConfusion henv ?_ ?_ ?_ ?_ ?_
      · simp
      · simp
      · simp [hstart]
      · exact Thread.noConfusion
      · exact Thread.noConfusion

theorem disposed_of_accounted (ha : Accounted s) (hst : s.status ≠ .undefined) :
    Disposed s where
  defined := hst
  once := by
    intro e env t henv ht
    by_cases hlive : ∃ i, s.appEnvs i = some e
    · obtain ⟨i, hi⟩ := hlive
      obtain ⟨hcl, hrel, hdereg⟩ := (ha e env t henv ht).live hi
      refine ⟨?_, by rw [hrel]; exact Nat.zero_le 1, fun a _ => ?_⟩
      · rw [hcl]
        split
        · exact le_rfl
        · exact Nat.zero_le 1
      · rw [hdereg]
        exact Nat.zero_le 1
    · obtain ⟨hcl, hrel, hdereg⟩ := (ha e env t henv ht).gone fun i hi => hlive ⟨i, hi⟩
      refine ⟨hcl.le, hrel.le, fun a hctx => ?_⟩
      rw [hctx] at hdereg
      exact hdereg.le
  all := by
    intro e env t henv ht hgone
    obtain ⟨hcl, hrel, hdereg⟩ := (ha e env t henv ht).gone hgone
    refine ⟨hcl, hrel, fun a hctx => ?_⟩
    rw [hctx] at hdereg
    exact hdereg

/-- Unloading a library without an entry point closes it a second time. -/
theorem not_disposed (hw : s.Wf) (ha : Accounted s) {l : CtlCall} (hC : ¬ Entry s l)
    (hs : CtlStep s l s') : ¬ Disposed s' := by
  intro hd
  cases hs with
  | unload => exact hd.defined (unloadApp_undefined s hC)
  | @joined i e env dlclosed _ hwait henv hend =>
      have hi := hw.waiting hwait
      have hstart : env.appHandle.image.startApp = false := by
        refine Bool.eq_false_iff.mpr fun hstart => hC ?_
        intro j e' env' hwait' henv'
        obtain ⟨rfl, rfl⟩ := Prod.mk.inj (Option.some.inj (hwait.symm.trans hwait'))
        obtain rfl := Option.some.inj (henv.symm.trans henv')
        exact hstart
      obtain ⟨hcl, -⟩ := (ha e env _ henv hend).live hi
      rw [if_pos ⟨rfl, hstart⟩, Controller.closes] at hcl
      rcases unloadJoined_cases hi env dlclosed with ⟨-, heq⟩ | ⟨-, heq⟩
      · rw [heq] at hd
        have hle := (hd.once henv hend).1
        simp [Controller.closes, List.count_append, hcl] at hle
      · rw [heq] at hd
        have hle := (hd.once henv hend).1
        simp [Controller.closes, List.count_append, hcl] at hle
  | load => exact hC trivial
  | register => exact hC trivial
  | configure => exact hC trivial
  | resolve => exact hC trivial
  | closeLibrary => exact hC trivial
  | appReturns => exact hC trivial

theorem accounted_init (router : RouterCtx) : Accounted (Controller.init router) := by
  intro e env t henv
  cases henv

/-- **EVERYTHING IS GIVEN BACK ONCE** on a run iff in the run every library that is
    unloaded has an entry point. -/
theorem disposed_iff_entry {router : RouterCtx} {tr : List (Controller × CtlCall)}
    {s : Controller} (h : Run CtlStep (Controller.init router) tr s) :
    Along Disposed tr s ↔ Meets Entry tr := by
  refine h.along_iff_meets
    (Q := fun s => s.Wf ∧ Accounted s ∧ s.status ≠ .undefined)
    ⟨Controller.wf_init router, accounted_init router, Status.noConfusion⟩ ?_ ?_ ?_
  · rintro s ⟨-, ha, hst⟩
    exact disposed_of_accounted ha hst
  · rintro s l s' ⟨hw, ha, -⟩ hC hs
    refine ⟨hw.step hs, accounted_step hw ha hC hs, hs.defined hw ?_⟩
    rintro appId rfl
    exact hC
  · rintro s l s' ⟨hw, ha, -⟩ hC hs
    exact not_disposed hw ha hC hs

/-- The account along a run under the condition. -/
theorem accounted_run {router : RouterCtx} {tr : List (Controller × CtlCall)}
    {s : Controller} (h : Run CtlStep (Controller.init router) tr s)
    (hC : Meets Entry tr) : Accounted s := by
  have hQ := h.along_of_meets (Q := fun s => s.Wf ∧ Accounted s) (C := Entry)
    ⟨Controller.wf_init router, accounted_init router⟩
    (fun hq hc hs => ⟨hq.1.step hs, accounted_step hq.1 hq.2 hc hs⟩) hC
  exact hQ.2.2

theorem entry_of_runs {s : Controller} {l : CtlCall} {e : EnvId} (h : l.runs = some e) :
    Entry s l := by
  cases l with
  | load => cases h
  | unload => cases h
  | joined => cases h
  | register => trivial
  | configure => trivial
  | resolve => trivial
  | closeLibrary => trivial
  | appReturns => trivial

/-- The first app is loaded and its thread runs to its end: the controller is then
    idle with the app in slot 0. -/
theorem run_first_app (router : RouterCtx) (startApp : Bool) (al : AppAlloc) :
    ∃ tr s env, Run CtlStep (Controller.init router) tr s ∧ Meets Entry tr ∧ s.Idle
      ∧ s.appEnvs 0 = some 0 ∧ s.thread 0 = some .ended ∧ s.env 0 = some env
      ∧ env.appHandle = ⟨0, 1, startApp⟩ := by
  have hinit : Run CtlStep (Controller.init router) [] _ := Run.start
  have hload := hinit.next
    (@CtlStep.load _ (plainReq startApp 0) ⟨true, true, true⟩ ⟨rfl, rfl⟩)
  obtain ⟨tr, s, env, hrun, hruns, hst, htab, hwait, ht, henv, hh⟩ :=
    exists_run_ended (e := 0) rfl rfl rfl al
      (s := (loadApp (Controller.init router) (plainReq startApp 0) ⟨true, true, true⟩).2)
  refine ⟨_, s, env, hload.trans hrun, ?_, ⟨hst, hwait⟩, congrFun htab 0, ht, henv, hh⟩
  refine meets_append.mpr ⟨meets_snoc.mpr ⟨meets_nil, trivial⟩, fun x hx => ?_⟩
  exact entry_of_runs (hruns x hx)

end

/-- An app that was loaded, ran and was unloaded. -/
theorem disposed_after_unload : ∃ tr s,
    Run CtlStep (Controller.init World.init.router) tr s ∧ Along Disposed tr s
      ∧ s.thread 0 = some .ended ∧ s.appEnvs 0 = none := by
  obtain ⟨tr, s, env, hrun, hC, hidle, hi, ht, henv, hh⟩ :=
    run_first_app World.init.router true ⟨true, true, true, true, true⟩
  obtain ⟨s₁, env₁, heq, -, -, hwait, ht₁, henv₁, hh₁, hjoined⟩ :=
    unload_ended hidle hi ht henv
  have hunload : CtlStep s (.unload (0 : Slot).val) _ := .unload hidle
  rw [heq] at hunload
  have hrun₁ := hrun.next hunload
  have hrun' := hrun₁.next hjoined
  have hi₁ := (Controller.wf_run hrun₁).waiting hwait
  refine ⟨_, _, hrun', (disposed_iff_entry hrun').mpr ?_, ?_⟩
  · refine meets_snoc.mpr ⟨meets_snoc.mpr ⟨hC, slotAt_eq_some (slotAt_val 0)⟩, ?_⟩
    intro i e env' hwait' henv'
    obtain ⟨rfl, rfl⟩ := Prod.mk.inj (Option.some.inj (hwait.symm.trans hwait'))
    obtain rfl := Option.some.inj (henv₁.symm.trans henv')
    rw [hh₁, hh]
  · rcases unloadJoined_cases hi₁ env₁ true with ⟨hno, -⟩ | ⟨-, heq⟩
    · cases hno
    · rw [heq]
      refine ⟨ht₁, ?_⟩
      show Function.update s₁.appEnvs 0 none 0 = none
      rw [Function.update_self]

/-- A library without an entry point, loaded and unloaded: it is closed twice. -/
theorem library_closed_twice : ¬ ∀ (router : RouterCtx)
    (tr : List (Controller × CtlCall)) (s : Controller),
    Run CtlStep (Controller.init router) tr s → Along Disposed tr s := by
  intro h
  obtain ⟨tr, s, env, hrun, hC, hidle, hi, ht, henv, hh⟩ :=
    run_first_app World.init.router false ⟨true, true, true, true, true⟩
  obtain ⟨s₁, env₁, heq, -, -, hwait, -, henv₁, hh₁, hjoined⟩ :=
    unload_ended hidle hi ht henv
  have hunload : CtlStep s (.unload (0 : Slot).val) _ := .unload hidle
  rw [heq] at hunload
  have hrun₁ := hrun.next hunload
  have ha := accounted_run hrun₁
    (meets_snoc.mpr ⟨hC, slotAt_eq_some (slotAt_val 0)⟩)
  refine not_disposed (Controller.wf_run hrun₁) ha ?_ hjoined (h _ _ _ (hrun₁.next hjoined)).2
  intro hentry
  have hstart := hentry _ _ _ hwait henv₁
  rw [hh₁, hh] at hstart
  cases hstart

end JrtcAppLifecycle
